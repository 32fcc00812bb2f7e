import RoutePolicy.Proofs.Policy.Groups
import RoutePolicy.Proofs.Source.Canonical

/-!
# Canonical policies

A list of canonical rules, no two of them with one path and one role key, is recovered from the
source text that tells it: the merge puts the methods of each rule together again, and the rules of
the policy are those of the list, numbered in their order.
-/

namespace RoutePolicy

namespace Canonical

open Policy (entryKey entries prepared)

/-- What tells the rules of a canonical policy apart. -/
def key (r : Canonical) : String × String :=
  (r.path, Rule.roleKeyOf r.authorizedRoles r.forbiddenRoles)

def document (defaultHost : String) (id : Nat) (r : Canonical) : Rule where
  id := Int64.ofNat id
  host := defaultHost
  path := r.path
  method := Rule.bracedMethods r.methods
  authorizedRoles := r.authorizedRoles
  forbiddenRoles := r.forbiddenRoles
  allowAnyone := false

/-- Without hyphens on one side the key tells the path and both role sets. -/
theorem sameRoles_of_key_eq {r other : Canonical} (h : r.key = other.key)
    (free : (Rule.HyphenFree r.authorizedRoles ∧ Rule.HyphenFree other.authorizedRoles) ∨
      (Rule.HyphenFree r.forbiddenRoles ∧ Rule.HyphenFree other.forbiddenRoles)) :
    r.path = other.path ∧ Rule.SameRoles r.authorizedRoles other.authorizedRoles ∧
      Rule.SameRoles r.forbiddenRoles other.forbiddenRoles := by
  obtain ⟨hpath, hkey⟩ := Prod.mk.inj h
  exact ⟨hpath, Rule.sameRoles_of_roleKeyOf (listable_of_isWord r.authorizedRoles_words)
    (listable_of_isWord other.authorizedRoles_words) (listable_of_isWord r.forbiddenRoles_words)
    (listable_of_isWord other.forbiddenRoles_words) hkey free⟩

variable {defaultHost : String} {r : Canonical}

theorem methodTokens_of_mem {m : String} (hm : m ∈ r.methods) : Rule.methodTokens m = [m] := by
  apply Rule.methodTokens_of_plain
  intro c hc hmem
  have hchar : isMethodChar c = true := List.all_eq_true.1 (r.methods_words m hm).2 c hc
  simp only [List.mem_cons, List.not_mem_nil, or_false] at hmem
  rcases hmem with rfl | rfl | rfl <;> exact absurd hchar (by decide)

/-! ## The entry of a rule -/

/-- The rules before the merge that come from the methods of a canonical rule. -/
structure Tells (defaultHost : String) (r : Canonical) (annotated : List Rule) : Prop where
  published : annotated.map Rule.published =
    r.methods.map fun m => { r.rule m with host := defaultHost }
  roleKey : ∀ a ∈ annotated, a.working.roleKey = a.roleKey

theorem Tells.exists_published {annotated : List Rule} (h : Tells defaultHost r annotated) {a : Rule}
    (ha : a ∈ annotated) : ∃ m ∈ r.methods, a.published = { r.rule m with host := defaultHost } := by
  have hmem : a.published ∈ annotated.map Rule.published := List.mem_map_of_mem ha
  rw [h.published] at hmem
  obtain ⟨m, hm, heq⟩ := List.mem_map.1 hmem
  exact ⟨m, hm, heq.symm⟩

theorem entryKey_of_published {a : Rule} {m : String} (hkey : a.working.roleKey = a.roleKey)
    (h : a.published = { r.rule m with host := defaultHost }) :
    entryKey a = (defaultHost, r.key) := by
  have hown : entryKey a = (a.published.host, a.published.path, a.published.roleKey) := by
    rw [entryKey, hkey]
    rfl
  rw [hown, h]
  rfl

theorem Tells.entryKey_eq {annotated : List Rule} (h : Tells defaultHost r annotated) {a : Rule}
    (ha : a ∈ annotated) : entryKey a = (defaultHost, r.key) := by
  obtain ⟨m, -, heq⟩ := h.exists_published ha
  exact entryKey_of_published (h.roleKey a ha) heq

theorem Tells.flatMap_tokens {annotated : List Rule} (h : Tells defaultHost r annotated) :
    annotated.flatMap Rule.tokens = r.methods := by
  have hmap : annotated.flatMap Rule.tokens = (annotated.map Rule.published).flatMap Rule.tokens := by
    rw [List.flatMap_map]
    rfl
  have hsingle : r.methods.flatMap (fun m => Rule.methodTokens m) = r.methods.flatMap ([·]) :=
    List.flatMap_congr fun m hm => methodTokens_of_mem hm
  rw [hmap, h.published, List.flatMap_map]
  exact hsingle.trans (List.flatMap_singleton' _)

theorem Tells.any_allowAnyone {annotated : List Rule} (h : Tells defaultHost r annotated) :
    annotated.any (·.allowAnyone) = false := by
  rw [List.any_eq_false]
  intro a ha
  obtain ⟨m, -, heq⟩ := h.exists_published ha
  have hanyone : a.published.allowAnyone = false := by rw [heq]; rfl
  intro htrue
  cases htrue.symm.trans hanyone

theorem Tells.entries {annotated : List Rule} (h : Tells defaultHost r annotated) :
    (entries annotated).map Rule.published = [r.document defaultHost 0] := by
  cases annotated with
  | nil => exact absurd (List.map_eq_nil_iff.1 h.published.symm) r.methods_ne_nil
  | cons first rest =>
    have hkey : ∀ a ∈ rest, entryKey a = entryKey first := fun a ha =>
      (h.entryKey_eq (List.mem_cons_of_mem first ha)).trans (h.entryKey_eq List.mem_cons_self).symm
    obtain ⟨m, -, hfirst⟩ := h.exists_published List.mem_cons_self
    rw [Policy.entries_of_forall_eq hkey, h.flatMap_tokens, h.any_allowAnyone]
    have hpublished : ({ first with allowAnyone := false }.withMethods r.methods).published =
        { first.published with
          allowAnyone := false
          method := Rule.bracedMethods (distinct r.methods) } := rfl
    rw [List.map_singleton, hpublished, hfirst, distinct_eq_self r.methods_nodup]
    rfl

theorem entries_pairs {rules : List Canonical} {annotated : List Rule}
    (hkeys : (rules.map key).Nodup)
    (hpublished : annotated.map Rule.published =
      (pairs rules).map fun p => { p.1.rule p.2 with host := defaultHost })
    (hroleKey : ∀ a ∈ annotated, a.working.roleKey = a.roleKey) :
    (entries annotated).map Rule.published = rules.map (document defaultHost 0) := by
  induction rules generalizing annotated with
  | nil =>
    rw [List.map_eq_nil_iff.1 hpublished]
    rfl
  | cons r rules ih =>
    rw [pairs_cons, List.map_append, List.map_map] at hpublished
    obtain ⟨first, rest, rfl, hfirst, hrest⟩ := List.map_eq_append_iff.1 hpublished
    rw [List.map_cons, List.nodup_cons] at hkeys
    have htells : Tells defaultHost r first :=
      ⟨hfirst, fun a ha => hroleKey a (List.mem_append_left rest ha)⟩
    have hdisjoint : ∀ a ∈ first, ∀ other ∈ rest, entryKey a ≠ entryKey other := by
      intro a ha other hother heq
      have hmem : other.published ∈ rest.map Rule.published := List.mem_map_of_mem hother
      rw [hrest] at hmem
      obtain ⟨p, hp, hother'⟩ := List.mem_map.1 hmem
      have hkey : entryKey other = (defaultHost, p.1.key) :=
        entryKey_of_published (hroleKey other (List.mem_append_right first hother)) hother'.symm
      rw [htells.entryKey_eq ha, hkey] at heq
      exact hkeys.1 ((Prod.mk.inj heq).2 ▸ List.mem_map_of_mem (of_mem_pairs hp).1)
    have hmore : (entries rest).map Rule.published = rules.map (document defaultHost 0) :=
      ih hkeys.2 hrest fun a ha => hroleKey a (List.mem_append_right first ha)
    rw [Policy.entries_append hdisjoint, List.map_append, htells.entries, hmore]
    rfl

/-! ## The policy of a source text -/

theorem merge_rules {rules : List Canonical} (hkeys : (rules.map key).Nodup)
    (defaultHost : String) :
    (Policy.merge defaultHost ((pairs rules).map fun p => p.1.rule p.2)).value.map Rule.published =
      rules.mapIdx fun i r => r.document defaultHost (i + 1) := by
  have hpublished : (prepared defaultHost ((pairs rules).map fun p => p.1.rule p.2)).map
      Rule.published = (pairs rules).map fun p => { p.1.rule p.2 with host := defaultHost } := by
    rw [Policy.published_prepared, List.map_map, List.map_map]
    rfl
  rw [Policy.value_merge, Policy.published_numberFrom,
    entries_pairs hkeys hpublished fun a ha => Policy.roleKey_of_mem_prepared ha]
  apply List.ext_getElem?
  intro i
  rw [List.getElem?_mapIdx, List.getElem?_mapIdx, List.getElem?_map, Option.map_map,
    Nat.add_comm 1 i]
  rfl

/-- A canonical policy is recovered from the source text that tells it. -/
theorem merge_source (packageHint file defaultHost : String) (strict : Bool)
    (rules : List Canonical) (hkeys : (rules.map key).Nodup) :
    ∃ parsed : List Route,
      (parseAll strict (Source.scan packageHint file (source rules))).value =
        .ok { parsed := parsed, failures := [] } ∧
      (Source.scan packageHint file (source rules)).length = (pairs rules).length ∧
      parsed.length = (pairs rules).length ∧
      (Policy.merge defaultHost (parsed.map Route.rule)).value.map Rule.published =
        rules.mapIdx fun i r => r.document defaultHost (i + 1) := by
  refine ⟨_, parseAll_source packageHint file strict rules, ?_, ?_, ?_⟩
  · rw [scan_source, List.length_map]
  · rw [List.length_map]
  · rw [List.map_map]
    exact merge_rules hkeys defaultHost

/-- Two rules of one path, told apart by their roles. -/
theorem merge_source_readers_writers :
    ([readers, writers].map key).Nodup ∧
      ∃ parsed : List Route,
        (parseAll true (Source.scan "main" "a.go" (source [readers, writers]))).value =
          .ok { parsed := parsed, failures := [] } ∧
        (Source.scan "main" "a.go" (source [readers, writers])).length = 3 ∧
        parsed.length = 3 ∧
        (Policy.merge "*" (parsed.map Route.rule)).value.map Rule.published =
          [{ id := 1, host := "*", path := "/a/*", method := "\x7bGET\x7d"
             authorizedRoles := ["user", "admin"] },
           { id := 2, host := "*", path := "/a/*", method := "\x7bPUT,M_1\x7d"
             authorizedRoles := ["admin"], forbiddenRoles := ["guest"] }] := by
  have hne : readers.key ≠ writers.key := by
    intro h
    have free : Rule.HyphenFree readers.authorizedRoles ∧ Rule.HyphenFree writers.authorizedRoles := by
      unfold Rule.HyphenFree
      decide
    have hsame := (sameRoles_of_key_eq h (Or.inl free)).2.1
    exact absurd ((hsame "user").1 (by decide)) (by decide)
  have hkeys : ([readers, writers].map key).Nodup :=
    List.nodup_cons.2 ⟨fun h => hne (List.mem_singleton.1 h), List.nodup_singleton _⟩
  have hdocuments : [readers, writers].mapIdx (fun i r => r.document "*" (i + 1)) =
      [{ id := 1, host := "*", path := "/a/*", method := "\x7bGET\x7d"
         authorizedRoles := ["user", "admin"] },
       { id := 2, host := "*", path := "/a/*", method := "\x7bPUT,M_1\x7d"
         authorizedRoles := ["admin"], forbiddenRoles := ["guest"] }] := by decide +kernel
  have hsource := merge_source "main" "a.go" "*" true [readers, writers] hkeys
  rw [hdocuments] at hsource
  exact ⟨hkeys, hsource⟩

end Canonical

end RoutePolicy
