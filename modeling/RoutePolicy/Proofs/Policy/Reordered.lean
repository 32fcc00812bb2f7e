import Mathlib
import RoutePolicy.Proofs.Policy.GroupBy
import RoutePolicy.Proofs.Rule.RoleKey

/-!
# Merging in another order

The order in which records are found decides which record of a key opens the document, and nothing
that a policy says hangs on that. The keys of a list are those of the reordered list, so each
document has one counterpart (`exists_equiv_of_keys_perm`), and what a document takes from its first
record beside the key is only how the role lists are written. The key tells their sets as long as
the roles can be read back from it.
-/

namespace RoutePolicy.Policy

open Rule (SameRoles Listable HyphenFree)

/-- Two documents for the same routes, with the same methods in some order. -/
structure SameRoutes (d d' : Rule) : Prop where
  host : d.host = d'.host
  path : d.path = d'.path
  roleKey : d.working.roleKey = d'.working.roleKey
  fragments : d.working.fragments = d'.working.fragments
  methods : d.working.methods.Perm d'.working.methods
  tokens : d.tokens.Perm d'.tokens
  allowAnyone : d.allowAnyone = d'.allowAnyone

def SamePeople (d d' : Rule) : Prop :=
  SameRoles d.authorizedRoles d'.authorizedRoles ∧ SameRoles d.forbiddenRoles d'.forbiddenRoles

/-- Roles of which a role key tells the authorized and the forbidden ones. -/
def Legible (r : Rule) : Prop :=
  Listable r.authorizedRoles ∧ Listable r.forbiddenRoles ∧ HyphenFree r.authorizedRoles

/-- Lists without repeated keys that have the same keys are paired by them. -/
theorem exists_equiv_of_keys_perm {α κ : Type} [DecidableEq κ] {key : α → κ} {xs ys : List α}
    (hnodup : (xs.map key).Nodup) (hperm : (xs.map key).Perm (ys.map key)) :
    ∃ e : Fin xs.length ≃ Fin ys.length, ∀ i, key xs[i] = key ys[e i] := by
  have hnodup' : (ys.map key).Nodup := hperm.nodup_iff.1 hnodup
  let left : Fin xs.length ≃ {k // k ∈ xs.map key} :=
    (finCongr (List.length_map key).symm).trans (hnodup.getEquiv _)
  let right : Fin ys.length ≃ {k // k ∈ ys.map key} :=
    (finCongr (List.length_map key).symm).trans (hnodup'.getEquiv _)
  refine ⟨(left.trans (Equiv.subtypeEquivRight fun k => hperm.mem_iff)).trans right.symm, ?_⟩
  intro i
  have hleft : ∀ i, (left i).1 = key xs[i] := by
    intro i
    simp [left, List.Nodup.getEquiv]
  have hright : ∀ j, (right j).1 = key ys[j] := by
    intro j
    simp [right, List.Nodup.getEquiv]
  rw [← hleft, ← hright]
  simp

variable {defaultHost : String} {rules rules' : List Rule} {first first' : Rule}

theorem exists_document_of_getElem (i : Fin (merge defaultHost rules).value.length) :
    ∃ first ∈ Rule.annotateAll rules,
      (merge defaultHost rules).value[i] = document defaultHost rules i first := by
  have hget := List.getElem_of_eq (value_merge_eq defaultHost rules) i.isLt
  rw [List.getElem_mapIdx] at hget
  exact ⟨_, mem_of_mem_distinctBy (List.getElem_mem _), hget⟩

theorem entryKey_document (place : Nat) (h : first ∈ Rule.annotateAll rules) :
    entryKey (document defaultHost rules place first) = mergeKey defaultHost first := by
  rw [mergeKey, ← Rule.roleKey_of_mem_annotateAll h]
  rfl

/-- The tokens of a document are its methods. -/
theorem tokens_document (place : Nat) (h : first ∈ Rule.annotateAll rules) :
    (document defaultHost rules place first).tokens = peerMethods defaultHost rules first := by
  obtain ⟨r, hr, hpublished⟩ := Rule.exists_published_of_mem_annotateAll h
  have hkey : mergeKey defaultHost r.published = mergeKey defaultHost first.published :=
    congrArg (mergeKey defaultHost) hpublished
  have hpeer : r ∈ peers defaultHost rules first := mem_peers.2 ⟨hr, hkey⟩
  apply Rule.methodTokens_bracedMethods
  · obtain ⟨token, rest, htokens⟩ := List.exists_cons_of_ne_nil r.tokens_ne_nil
    have hmem : token ∈ peerMethods defaultHost rules first :=
      mem_distinct.2 (List.mem_flatMap.2 ⟨r, hpeer, htokens ▸ List.mem_cons_self⟩)
    exact List.ne_nil_of_mem hmem
  · intro token htoken
    obtain ⟨peer, -, hpeer⟩ := List.mem_flatMap.1 (mem_distinct.1 htoken)
    exact peer.commaFree_of_mem_tokens hpeer

theorem peers_perm (hperm : rules.Perm rules')
    (hkey : mergeKey defaultHost first = mergeKey defaultHost first') :
    (peers defaultHost rules first).Perm (peers defaultHost rules' first') := by
  rw [peers, hkey]
  exact hperm.filter _

theorem peerMethods_perm (hperm : rules.Perm rules')
    (hkey : mergeKey defaultHost first = mergeKey defaultHost first') :
    (peerMethods defaultHost rules first).Perm (peerMethods defaultHost rules' first') :=
  distinct_perm fun _ => ((peers_perm hperm hkey).flatMap_right Rule.tokens).mem_iff

theorem sameRoutes_document (hperm : rules.Perm rules') {place place' : Nat}
    (h : first ∈ Rule.annotateAll rules) (h' : first' ∈ Rule.annotateAll rules')
    (hkey : mergeKey defaultHost first = mergeKey defaultHost first') :
    SameRoutes (document defaultHost rules place first)
      (document defaultHost rules' place' first') := by
  obtain ⟨hhost, hrest⟩ := Prod.mk.inj hkey
  obtain ⟨hpath, hroleKey⟩ := Prod.mk.inj hrest
  have hmethods := peerMethods_perm hperm hkey
  exact {
    host := hhost
    path := hpath
    roleKey := by
      rw [← Rule.roleKey_of_mem_annotateAll h, ← Rule.roleKey_of_mem_annotateAll h'] at hroleKey
      exact hroleKey
    fragments := by
      have hfragments := congrArg Rule.fragmentsOf hpath
      rw [← Rule.fragments_of_mem_annotateAll h, ← Rule.fragments_of_mem_annotateAll h']
        at hfragments
      exact hfragments
    methods := hmethods
    tokens := by
      rw [tokens_document place h, tokens_document place' h']
      exact hmethods
    allowAnyone := (peers_perm hperm hkey).any_eq }

theorem samePeople_document (legible : ∀ r ∈ rules, Legible r)
    (legible' : ∀ r ∈ rules', Legible r) {place place' : Nat}
    (h : first ∈ Rule.annotateAll rules) (h' : first' ∈ Rule.annotateAll rules')
    (hkey : mergeKey defaultHost first = mergeKey defaultHost first') :
    SamePeople (document defaultHost rules place first)
      (document defaultHost rules' place' first') := by
  have hlegible : ∀ {rules : List Rule} {first : Rule}, (∀ r ∈ rules, Legible r) →
      first ∈ Rule.annotateAll rules → Legible first.published := by
    intro rules first legible h
    obtain ⟨r, hr, hpublished⟩ := Rule.exists_published_of_mem_annotateAll h
    rw [← hpublished]
    exact legible r hr
  obtain ⟨hauthorized, hforbidden, hfree⟩ := hlegible legible h
  obtain ⟨hauthorized', hforbidden', hfree'⟩ := hlegible legible' h'
  have hroleKey : first.roleKey = first'.roleKey := (Prod.mk.inj (Prod.mk.inj hkey).2).2
  exact Rule.sameRoles_of_roleKeyOf hauthorized hauthorized' hforbidden hforbidden' hroleKey
    (.inl ⟨hfree, hfree'⟩)

theorem keys_merge_perm (defaultHost : String) (hperm : rules.Perm rules') :
    ((merge defaultHost rules).value.map entryKey).Perm
      ((merge defaultHost rules').value.map entryKey) := by
  rw [keys_merge, keys_merge]
  exact distinct_perm fun _ => (hperm.map (mergeKey defaultHost)).mem_iff

/-- A merge of the same records in another order gives documents that are paired with these: for the
same host and path, with the same role key and fragments, the same methods and the same say whether
anyone is allowed. Where every role key can be read back, they name the same roles too. -/
theorem merge_reordered (defaultHost : String) {rules rules' : List Rule}
    (hperm : rules.Perm rules') :
    let docs := (merge defaultHost rules).value
    let docs' := (merge defaultHost rules').value
    ∃ e : Fin docs.length ≃ Fin docs'.length,
      (∀ i : Fin docs.length, SameRoutes docs[i] docs'[e i]) ∧
      ((∀ r ∈ rules, Legible r) → ∀ i : Fin docs.length, SamePeople docs[i] docs'[e i]) := by
  intro docs docs'
  have hnodup : (docs.map entryKey).Nodup := by
    rw [keys_merge]
    exact nodup_distinct _
  obtain ⟨e, hkeys⟩ := exists_equiv_of_keys_perm hnodup (keys_merge_perm defaultHost hperm)
  -- the pairing is by keys, and documents of one key come from records of one key
  have hpair : ∀ i : Fin docs.length,
      ∃ first ∈ Rule.annotateAll rules, ∃ first' ∈ Rule.annotateAll rules',
      docs[i] = document defaultHost rules i first ∧
      docs'[e i] = document defaultHost rules' (e i) first' ∧
      mergeKey defaultHost first = mergeKey defaultHost first' := by
    intro i
    obtain ⟨first, h, hdoc⟩ := exists_document_of_getElem i
    obtain ⟨first', h', hdoc'⟩ := exists_document_of_getElem (e i)
    refine ⟨first, h, first', h', hdoc, hdoc', ?_⟩
    rw [← entryKey_document i h, ← entryKey_document (e i) h', ← hdoc, ← hdoc']
    exact hkeys i
  refine ⟨e, fun i => ?_, fun legible i => ?_⟩
  · obtain ⟨first, h, first', h', hdoc, hdoc', hkey⟩ := hpair i
    rw [hdoc, hdoc']
    exact sameRoutes_document hperm h h' hkey
  · obtain ⟨first, h, first', h', hdoc, hdoc', hkey⟩ := hpair i
    rw [hdoc, hdoc']
    exact samePeople_document legible (fun r hr => legible r (hperm.mem_iff.2 hr)) h h' hkey

/-- Two records of one key, of which either may come first, with one of another key between them. -/
theorem merge_reordered_reverse :
    let rules : List Rule :=
      [{ path := "/a", method := "GET", authorizedRoles := ["a", "a"], forbiddenRoles := ["x-y"] },
        { path := "/c", method := "PUT" },
        { path := "/a", method := "\x7bPUT,GET\x7d", authorizedRoles := ["a"]
          forbiddenRoles := ["x-y"], host := "*", allowAnyone := true }]
    let docs := (merge "*" rules).value
    let docs' := (merge "*" rules.reverse).value
    rules.Perm rules.reverse ∧ (∀ r ∈ rules, Legible r) ∧
      docs.map (·.method) = ["\x7bGET,PUT\x7d", "\x7bPUT\x7d"] ∧
      docs'.map (·.method) = ["\x7bPUT,GET\x7d", "\x7bPUT\x7d"] ∧
      ∃ e : Fin docs.length ≃ Fin docs'.length,
        ∀ i : Fin docs.length, SameRoutes docs[i] docs'[e i] ∧ SamePeople docs[i] docs'[e i] := by
  intro rules docs docs'
  have hperm : rules.Perm rules.reverse := rules.reverse_perm.symm
  have legible : ∀ r ∈ rules, Legible r := by
    unfold Legible Listable HyphenFree Text.CommaFree
    decide
  obtain ⟨e, hroutes, hpeople⟩ := merge_reordered "*" hperm
  refine ⟨hperm, legible, by decide +kernel, by decide +kernel, e, fun i => ?_⟩
  exact ⟨hroutes i, hpeople legible i⟩

end RoutePolicy.Policy
