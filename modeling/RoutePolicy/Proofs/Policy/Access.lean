import Mathlib.Data.Set.Basic
import RoutePolicy.Proofs.Policy.Groups
import RoutePolicy.Proofs.Route.Parse

/-!
# What a merge grants

A rule grants each of its methods, on its host and path, to the people whom its two role sets
describe. The merge keeps these grants exactly if no two rules of one host and path have one role
key and different role sets. It is the role key that may fail here: authorized `a-b` with forbidden
`c` and authorized `a` with forbidden `b-c` have the same key, and then the methods of the second
rule go to the people of the first. Where hyphens stand on one side at most, every key tells its
role sets, and nothing is lost or won by the merge.
-/

namespace RoutePolicy

open Rule (SameRoles Listable HyphenFree)

/-- The rule lets a method of a host and path to people described by two role sets. -/
def Rule.Grants (r : Rule) (host path method : String) (authorized forbidden : Set String) :
    Prop :=
  r.host = host ∧ r.path = path ∧ method ∈ r.tokens ∧
    {role | role ∈ r.authorizedRoles} = authorized ∧ {role | role ∈ r.forbiddenRoles} = forbidden

namespace Policy

def Grants (rules : List Rule) (host path method : String) (authorized forbidden : Set String) :
    Prop :=
  ∃ r ∈ rules, r.Grants host path method authorized forbidden

/-- The merged policy grants what the rules grant, and nothing else. -/
def KeepsAccess (defaultHost : String) (rules : List Rule) : Prop :=
  ∀ host path method authorized forbidden,
    Grants (merge defaultHost rules).value host path method authorized forbidden ↔
      Grants (rules.map (Rule.withHost defaultHost)) host path method authorized forbidden

/-- Rules of one host, path and role key have the same role sets. -/
def KeysTellRoles (rules : List Rule) : Prop :=
  ∀ r ∈ rules, ∀ r' ∈ rules, r.host = r'.host → r.path = r'.path → r.roleKey = r'.roleKey →
    SameRoles r.authorizedRoles r'.authorizedRoles ∧ SameRoles r.forbiddenRoles r'.forbiddenRoles

theorem grants_congr {rules rules' : List Rule} {f : Rule → Rule}
    (h : rules.map f = rules'.map f)
    (hf : ∀ r host path method authorized forbidden,
      (f r).Grants host path method authorized forbidden ↔
        r.Grants host path method authorized forbidden)
    {host path method : String} {authorized forbidden : Set String} :
    Grants rules host path method authorized forbidden ↔
      Grants rules' host path method authorized forbidden := by
  have hmap : ∀ l : List Rule, Grants l host path method authorized forbidden ↔
      Grants (l.map f) host path method authorized forbidden := by
    intro l
    simp only [Grants, List.mem_map, exists_exists_and_eq_and, hf]
  rw [hmap rules, hmap rules', h]

theorem keysTellRoles_congr {rules rules' : List Rule}
    (h : rules.map Rule.published = rules'.map Rule.published) :
    KeysTellRoles rules ↔ KeysTellRoles rules' := by
  have hmap : ∀ l : List Rule, KeysTellRoles l ↔ KeysTellRoles (l.map Rule.published) := by
    intro l
    simp only [KeysTellRoles, List.forall_mem_map]
    rfl
  rw [hmap rules, hmap rules', h]

/-! ## Grants of the entries -/

/-- An entry grants the methods of its whole group to the people of the group's first rule. -/
theorem grants_entries {rules : List Rule} {host path method : String}
    {authorized forbidden : Set String} :
    Grants (entries rules) host path method authorized forbidden ↔
      ∃ first ∈ distinctBy entryKey rules, first.host = host ∧ first.path = path ∧
        (∃ r ∈ rules, entryKey r = entryKey first ∧ method ∈ r.tokens) ∧
        {role | role ∈ first.authorizedRoles} = authorized ∧
        {role | role ∈ first.forbiddenRoles} = forbidden := by
  simp only [Grants, entries, List.mem_map, exists_exists_and_eq_and]
  refine exists_congr fun first => and_congr_right fun hfirst => ?_
  rw [Rule.Grants, tokens_groupEntry (mem_of_mem_distinctBy hfirst), mem_distinct, mem_groupTokens]
  rfl

theorem setOf_mem_eq_iff {left right : List String} :
    {role | role ∈ left} = {role | role ∈ right} ↔ SameRoles left right := Set.ext_iff

variable {rules : List Rule}

/-- Where keys tell the role sets, the first rule of a group has the role sets of all the others. -/
theorem grants_entries_iff (keyed : ∀ r ∈ rules, r.working.roleKey = r.roleKey)
    (told : KeysTellRoles rules) {host path method : String} {authorized forbidden : Set String} :
    Grants (entries rules) host path method authorized forbidden ↔
      Grants rules host path method authorized forbidden := by
  have hsame : ∀ r ∈ rules, ∀ first ∈ rules, entryKey r = entryKey first →
      r.host = first.host ∧ r.path = first.path ∧
        {role | role ∈ r.authorizedRoles} = {role | role ∈ first.authorizedRoles} ∧
        {role | role ∈ r.forbiddenRoles} = {role | role ∈ first.forbiddenRoles} := by
    intro r hr first hfirst hkey
    obtain ⟨hhost, hpath, hrole⟩ :
        r.host = first.host ∧ r.path = first.path ∧ r.roleKey = first.roleKey := by
      simpa only [entryKey, keyed r hr, keyed first hfirst, Prod.mk.injEq] using hkey
    obtain ⟨ha, hf⟩ := told r hr first hfirst hhost hpath hrole
    exact ⟨hhost, hpath, setOf_mem_eq_iff.2 ha, setOf_mem_eq_iff.2 hf⟩
  rw [grants_entries]
  constructor
  · rintro ⟨first, hfirst, rfl, rfl, ⟨r, hr, hkey, hmethod⟩, rfl, rfl⟩
    obtain ⟨hhost, hpath, ha, hf⟩ := hsame r hr first (mem_of_mem_distinctBy hfirst) hkey
    exact ⟨r, hr, hhost, hpath, hmethod, ha, hf⟩
  · rintro ⟨r, hr, rfl, rfl, hmethod, rfl, rfl⟩
    obtain ⟨first, hfirst, hkey⟩ := exists_mem_distinctBy entryKey hr
    obtain ⟨hhost, hpath, ha, hf⟩ := hsame first (mem_of_mem_distinctBy hfirst) r hr hkey
    exact ⟨first, hfirst, hhost, hpath, ⟨r, hr, hkey.symm, hmethod⟩, ha, hf⟩

/-- A rule whose grants the entries keep has the role sets of the first rule of its key. -/
theorem sameRoles_first (keyed : ∀ r ∈ rules, r.working.roleKey = r.roleKey)
    (kept : ∀ host path method authorized forbidden,
      Grants (entries rules) host path method authorized forbidden ↔
        Grants rules host path method authorized forbidden) {r : Rule} (hr : r ∈ rules) :
    ∃ first ∈ distinctBy entryKey rules, entryKey first = entryKey r ∧
      SameRoles first.authorizedRoles r.authorizedRoles ∧
      SameRoles first.forbiddenRoles r.forbiddenRoles := by
  obtain ⟨method, rest, htokens⟩ := List.exists_cons_of_ne_nil r.tokens_ne_nil
  have hmethod : method ∈ r.tokens := htokens ▸ List.mem_cons_self
  have hgrant : Grants (entries rules) r.host r.path method {role | role ∈ r.authorizedRoles}
      {role | role ∈ r.forbiddenRoles} :=
    (kept ..).2 ⟨r, hr, rfl, rfl, hmethod, rfl, rfl⟩
  obtain ⟨first, hfirst, hhost, hpath, -, ha, hf⟩ := grants_entries.1 hgrant
  have ha' := setOf_mem_eq_iff.1 ha
  have hf' := setOf_mem_eq_iff.1 hf
  refine ⟨first, hfirst, ?_, ha', hf'⟩
  rw [entryKey, entryKey, keyed first (mem_of_mem_distinctBy hfirst), keyed r hr, hhost, hpath,
    Rule.roleKey, Rule.roleKey, Rule.roleKeyOf_congr ha' hf']

theorem keysTellRoles_of_kept (keyed : ∀ r ∈ rules, r.working.roleKey = r.roleKey)
    (kept : ∀ host path method authorized forbidden,
      Grants (entries rules) host path method authorized forbidden ↔
        Grants rules host path method authorized forbidden) : KeysTellRoles rules := by
  intro r hr r' hr' hhost hpath hrole
  obtain ⟨first, hfirst, hkey, ha, hf⟩ := sameRoles_first keyed kept hr
  obtain ⟨first', hfirst', hkey', ha', hf'⟩ := sameRoles_first keyed kept hr'
  have hkeys : entryKey r = entryKey r' := by
    rw [entryKey, entryKey, keyed r hr, keyed r' hr', hhost, hpath, hrole]
  have heq : first = first' :=
    eq_of_mem_distinctBy hfirst hfirst' (hkey.trans (hkeys.trans hkey'.symm))
  subst heq
  exact ⟨ha.symm.trans ha', hf.symm.trans hf'⟩

/-! ## Grants of a merge -/

theorem grants_merge {defaultHost host path method : String} {authorized forbidden : Set String} :
    Grants (merge defaultHost rules).value host path method authorized forbidden ↔
      Grants (entries (prepared defaultHost rules)) host path method authorized forbidden := by
  rw [value_merge]
  exact grants_congr (f := fun r => { r with id := 0 }) (map_numberFrom (fun _ _ => rfl) 1 _)
    fun _ _ _ _ _ _ => Iff.rfl

theorem keepsAccess_iff_prepared {defaultHost : String} :
    KeepsAccess defaultHost rules ↔
      ∀ host path method authorized forbidden,
        Grants (entries (prepared defaultHost rules)) host path method authorized forbidden ↔
          Grants (prepared defaultHost rules) host path method authorized forbidden := by
  have hgrants : ∀ host path method authorized forbidden,
      Grants (prepared defaultHost rules) host path method authorized forbidden ↔
        Grants (rules.map (Rule.withHost defaultHost)) host path method authorized forbidden :=
    fun _ _ _ _ _ =>
      grants_congr (published_prepared defaultHost rules) fun _ _ _ _ _ _ => Iff.rfl
  simp only [KeepsAccess, grants_merge, hgrants]

/-- The merge keeps the grants of any rules exactly where keys tell the role sets. -/
theorem keepsAccess_iff (defaultHost : String) (rules : List Rule) :
    KeepsAccess defaultHost rules ↔ KeysTellRoles (rules.map (Rule.withHost defaultHost)) := by
  have keyed : ∀ r ∈ prepared defaultHost rules, r.working.roleKey = r.roleKey :=
    fun _ hr => roleKey_of_mem_prepared hr
  rw [keepsAccess_iff_prepared, ← keysTellRoles_congr (published_prepared defaultHost rules)]
  exact ⟨keysTellRoles_of_kept keyed, fun told _ _ _ _ _ => grants_entries_iff keyed told⟩

/-! ## Accepted rules -/

theorem keysTellRoles_of_hyphenFree (accepted : ∀ r ∈ rules, r.Accepted)
    (free : (∀ r ∈ rules, HyphenFree r.authorizedRoles) ∨
      ∀ r ∈ rules, HyphenFree r.forbiddenRoles) : KeysTellRoles rules := by
  intro r hr r' hr' _ _ hkey
  apply Rule.sameRoles_of_roleKeyOf (accepted r hr).listable_authorizedRoles
    (accepted r' hr').listable_authorizedRoles (accepted r hr).listable_forbiddenRoles
    (accepted r' hr').listable_forbiddenRoles hkey
  exact free.imp (fun h => ⟨h r hr, h r' hr'⟩) fun h => ⟨h r hr, h r' hr'⟩

theorem hyphenFree_withHost {defaultHost : String}
    (free : (∀ r ∈ rules, HyphenFree r.authorizedRoles) ∨
      ∀ r ∈ rules, HyphenFree r.forbiddenRoles) :
    (∀ r ∈ rules.map (Rule.withHost defaultHost), HyphenFree r.authorizedRoles) ∨
      ∀ r ∈ rules.map (Rule.withHost defaultHost), HyphenFree r.forbiddenRoles := by
  simp only [List.forall_mem_map]
  have hroles : ∀ r : Rule, (r.withHost defaultHost).authorizedRoles = r.authorizedRoles ∧
      (r.withHost defaultHost).forbiddenRoles = r.forbiddenRoles := by
    intro r
    rw [Rule.withHost_eq]
    exact ⟨rfl, rfl⟩
  simp only [hroles]
  exact free

theorem keepsAccess_of_hyphenFree {defaultHost : String} (accepted : ∀ r ∈ rules, r.Accepted)
    (free : (∀ r ∈ rules, HyphenFree r.authorizedRoles) ∨
      ∀ r ∈ rules, HyphenFree r.forbiddenRoles) : KeepsAccess defaultHost rules := by
  rw [keepsAccess_iff]
  refine keysTellRoles_of_hyphenFree ?_ (hyphenFree_withHost free)
  rw [List.forall_mem_map]
  exact fun r hr => (accepted r hr).withHost defaultHost

/-- Accepted rules lose or win access in the merge exactly where one key of a host and path stands
for two pairs of role sets, which takes hyphens on both sides. -/
theorem merge_keepsAccess (defaultHost : String) (rules : List Rule)
    (accepted : ∀ r ∈ rules, r.Accepted) :
    (KeepsAccess defaultHost rules ↔ KeysTellRoles (rules.map (Rule.withHost defaultHost))) ∧
      ((∀ r ∈ rules, HyphenFree r.authorizedRoles) ∨ (∀ r ∈ rules, HyphenFree r.forbiddenRoles) →
        KeepsAccess defaultHost rules) :=
  ⟨keepsAccess_iff defaultHost rules, keepsAccess_of_hyphenFree accepted⟩

/-- The keys tell the role sets of two rules with a hyphen in an authorized role. -/
theorem keepsAccess_on_call :
    KeepsAccess "*"
      [{ path := "/a", method := "GET", authorizedRoles := ["on-call", "root"] },
        { path := "/a", method := "POST", authorizedRoles := ["root"],
          forbiddenRoles := ["guest"] }] := by
  refine (merge_keepsAccess "*" _ ?_).2 (Or.inr ?_)
  · simp only [List.forall_mem_cons]
    refine ⟨?_, ?_, List.forall_mem_nil _⟩
    · exact Rule.accepted_of_parse
        { routerLine := "/a [get]", authLine := "on-call,root" } (by decide +kernel)
    · exact Rule.accepted_of_parse
        { routerLine := "/a [post]", authLine := "root", forbiddenLine := "guest" }
        (by decide +kernel)
  · simp only [HyphenFree]
    decide

/-- Two accepted rules of different role sets may share their role key, and then the methods of the
second are granted to the people of the first. -/
theorem not_keepsAccess_of_accepted :
    ¬ ∀ (defaultHost : String) (rules : List Rule),
      (∀ r ∈ rules, r.Accepted) → KeepsAccess defaultHost rules := by
  intro h
  let first : Rule :=
    { path := "/a", method := "GET", authorizedRoles := ["a-b"], forbiddenRoles := ["c"] }
  let second : Rule :=
    { path := "/a", method := "POST", authorizedRoles := ["a"], forbiddenRoles := ["b-c"] }
  have accepted : ∀ r ∈ [first, second], r.Accepted := by
    simp only [List.forall_mem_cons]
    refine ⟨?_, ?_, List.forall_mem_nil _⟩
    · exact Rule.accepted_of_parse
        { routerLine := "/a [get]", authLine := "a-b", forbiddenLine := "c" }
        (by decide +kernel)
    · exact Rule.accepted_of_parse
        { routerLine := "/a [post]", authLine := "a", forbiddenLine := "b-c" }
        (by decide +kernel)
  have told := (keepsAccess_iff "*" [first, second]).1 (h "*" _ accepted)
  have hkey : first.roleKey = second.roleKey := by decide +kernel
  have same := told (first.withHost "*") (by decide) (second.withHost "*") (by decide) rfl rfl hkey
  have hrole : "a-b" ∈ second.authorizedRoles := (same.1 "a-b").1 List.mem_cons_self
  exact absurd hrole (by decide)

end Policy

end RoutePolicy
