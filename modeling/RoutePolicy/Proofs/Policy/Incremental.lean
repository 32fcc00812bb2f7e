import RoutePolicy.Policy
import RoutePolicy.Proofs.Policy.Groups
import RoutePolicy.Route.Basic

/-!
# Merging in two runs

A policy may be merged again together with more records, and the result is the policy of all the
records. A merge gives the groups of its records, and records that are groups already stay as they
are (`entries_entries`), so the loop may stop after any record and go on from the policy it has.

One working field is not kept: how many fragments a record shares with the one before it. The
records that were united with others are missing in the second run, so a record may have another
predecessor there. `Rule.alone` forgets that count.
-/

namespace RoutePolicy

/-- The rule without the count of fragments that it shares with its predecessor. -/
def Rule.alone (r : Rule) : Rule :=
  { r with working := { r.working with sharedFragments := 0 } }

/-- The route of a rule that was found in no source text. -/
def Route.ofRule (r : Rule) : Route := { rule := r }

namespace Policy

/-- What two runs agree on before the rules are numbered. -/
def core (r : Rule) : Rule := { r.alone with id := 0 }

/-- A record as the loop takes it, as far as its predecessor has no say. -/
def readied (defaultHost : String) (r : Rule) : Rule :=
  { r with
    id := 0
    host := if r.host = "" then defaultHost else r.host
    working :=
      { r.working with
        roleKey := r.roleKey
        fragments := Rule.fragmentsOf r.path
        sharedFragments := 0 } }

variable {defaultHost : String} {rules more : List Rule} {r : Rule}

theorem map_core_prepared (defaultHost : String) (rules : List Rule) :
    (prepared defaultHost rules).map core = rules.map (readied defaultHost) := by
  have hafter : ∀ previous, ((Rule.annotateAfter previous rules).map
      (Rule.withHost defaultHost)).map core = rules.map (readied defaultHost) := by
    induction rules with
    | nil => exact fun _ => rfl
    | cons r rules ih =>
      intro previous
      have hfirst : core ((r.annotate previous).withHost defaultHost) = readied defaultHost r := by
        rw [Rule.withHost_eq]
        rfl
      rw [Rule.annotateAfter, List.map_cons, List.map_cons, List.map_cons, ih, hfirst]
  exact hafter none

/-! ## Groups of groups -/

theorem groupEntry_map_core (rules : List Rule) (r : Rule) :
    groupEntry (rules.map core) (core r) = core (groupEntry rules r) := by
  have hgroup : group (rules.map core) (core r) = (group rules r).map core := List.filter_map
  have htokens : groupTokens (rules.map core) (core r) = groupTokens rules r := by
    rw [groupTokens, hgroup, List.flatMap_map]
    rfl
  have hany : (group (rules.map core) (core r)).any (·.allowAnyone) =
      (group rules r).any (·.allowAnyone) := by
    rw [hgroup, List.any_map]
    rfl
  rw [groupEntry, htokens, hany]
  rfl

theorem entries_map_core (rules : List Rule) :
    entries (rules.map core) = (entries rules).map core := by
  have hkey : entryKey ∘ core = entryKey := rfl
  rw [entries, distinctBy_map, hkey, List.map_map, entries, List.map_map]
  exact List.map_congr_left fun r _ => groupEntry_map_core rules r

theorem openEntry_groupEntry (h : r ∈ rules) :
    openEntry (groupEntry rules r) = groupEntry rules r := by
  rw [openEntry, tokens_groupEntry h]
  simp only [groupEntry, Rule.withMethods, distinct_eq_self (nodup_distinct _)]

theorem entries_singleton (r : Rule) : entries [r] = [openEntry r] := by
  have hall : ∀ other ∈ ([] : List Rule), entryKey other = entryKey r := by simp
  rw [entries_of_forall_eq hall, List.any_cons, List.any_nil, Bool.or_false, List.flatMap_singleton,
    openEntry]

theorem entries_of_nodup (h : (rules.map entryKey).Nodup) :
    entries rules = rules.map openEntry := by
  induction rules with
  | nil => rw [entries, distinctBy, List.map_nil, List.map_nil]
  | cons r rules ih =>
    rw [List.map_cons, List.nodup_cons] at h
    have hdisjoint : ∀ first ∈ [r], ∀ other ∈ rules, entryKey first ≠ entryKey other := by
      intro first hfirst other hother heq
      rw [List.mem_singleton.1 hfirst] at heq
      exact h.1 (heq ▸ List.mem_map_of_mem hother)
    rw [← List.singleton_append, entries_append hdisjoint, entries_singleton, ih h.2,
      List.map_append, List.map_singleton]

/-- Merging the entries of a merge once more changes nothing. -/
theorem entries_entries (rules : List Rule) : entries (entries rules) = entries rules := by
  have hkeys : (entries rules).map entryKey = (distinctBy entryKey rules).map entryKey := by
    rw [entries, List.map_map]
    rfl
  have hnodup : ((entries rules).map entryKey).Nodup := by
    rw [hkeys]
    exact nodup_keys_distinctBy entryKey rules
  rw [entries_of_nodup hnodup, entries, List.map_map]
  exact List.map_congr_left fun r hr => openEntry_groupEntry (mem_of_mem_distinctBy hr)

/-- The loop may be left after any record and taken up again from its entries. -/
theorem entries_entries_append (rules more : List Rule) :
    entries (entries rules ++ more) = entries (rules ++ more) :=
  calc entries (entries rules ++ more)
      = (addAll [] (entries rules ++ more)).value := (value_addAll [] _).symm
    _ = (addAll (addAll [] (entries rules)).value more).value := value_addAll_append ..
    _ = (addAll (entries (entries rules)) more).value := by
      rw [show (addAll [] (entries rules)).value = entries (entries rules) from value_addAll [] _]
    _ = (addAll (entries rules) more).value := by rw [entries_entries]
    _ = entries (rules ++ more) := value_addAll rules more

/-! ## Merges -/

theorem map_core_merge (defaultHost : String) (rules : List Rule) :
    (merge defaultHost rules).value.map core = entries (rules.map (readied defaultHost)) := by
  rw [value_merge, map_numberFrom (fun _ _ => rfl), ← entries_map_core, map_core_prepared]

theorem map_alone_merge (defaultHost : String) (rules : List Rule) :
    (merge defaultHost rules).value.map Rule.alone =
      numberFrom 1 ((merge defaultHost rules).value.map core) := by
  have hnumber : ∀ (es : List Rule) (next : Nat),
      (numberFrom next es).map Rule.alone = numberFrom next (es.map core) := by
    intro es
    induction es with
    | nil => exact fun _ => rfl
    | cons e es ih =>
      intro next
      rw [numberFrom, List.map_cons, ih]
      rfl
  rw [value_merge, hnumber, map_numberFrom fun _ _ => rfl]

theorem readied_readied (defaultHost : String) (r : Rule) :
    readied defaultHost (readied defaultHost r) = readied defaultHost r := by
  have hhost : (if (readied defaultHost r).host = "" then defaultHost
      else (readied defaultHost r).host) = (readied defaultHost r).host := by
    by_cases h : r.host = ""
    · simp only [readied, if_pos h, ite_self]
    · simp only [readied, if_neg h]
  have hready : readied defaultHost (readied defaultHost r) =
      { readied defaultHost r with
        host := if (readied defaultHost r).host = "" then defaultHost
          else (readied defaultHost r).host } := rfl
  rw [hready, hhost]

/-- What a merge has made ready is ready for the next one. -/
theorem readied_of_mem_entries {e : Rule}
    (h : e ∈ entries (rules.map (readied defaultHost))) : readied defaultHost e = e := by
  obtain ⟨first, hfirst, rfl⟩ := List.mem_map.1 h
  obtain ⟨r, -, rfl⟩ := List.mem_map.1 (mem_of_mem_distinctBy hfirst)
  -- an entry differs from its first record in fields that are not made ready
  have hready : ∀ (group : List Rule) (first : Rule),
      readied defaultHost (groupEntry group first) =
        { readied defaultHost first with
          allowAnyone := (groupEntry group first).allowAnyone
          method := (groupEntry group first).method
          working := { (readied defaultHost first).working with
            methods := (groupEntry group first).working.methods } } := fun _ _ => rfl
  rw [hready, readied_readied]
  rfl

theorem map_readied_merge (defaultHost : String) (rules : List Rule) :
    (merge defaultHost rules).value.map (readied defaultHost) =
      entries (rules.map (readied defaultHost)) := by
  have hcore : readied defaultHost ∘ core = readied defaultHost := rfl
  rw [← hcore, ← List.map_map, map_core_merge]
  exact (List.map_congr_left fun e he => readied_of_mem_entries he).trans (List.map_id _)

theorem map_core_merge_merge (defaultHost : String) (rules more : List Rule) :
    (merge defaultHost ((merge defaultHost rules).value ++ more)).value.map core =
      (merge defaultHost (rules ++ more)).value.map core := by
  rw [map_core_merge, map_core_merge, List.map_append, List.map_append, map_readied_merge,
    entries_entries_append]

theorem map_alone_merge_merge (defaultHost : String) (rules more : List Rule) :
    (merge defaultHost ((merge defaultHost rules).value ++ more)).value.map Rule.alone =
      (merge defaultHost (rules ++ more)).value.map Rule.alone := by
  rw [map_alone_merge, map_alone_merge, map_core_merge_merge]

/-- The written form of a policy has no working fields. -/
theorem toJson_congr {policy policy' : List Rule}
    (h : policy.map Rule.alone = policy'.map Rule.alone) : toJson policy = toJson policy' := by
  have hwrite : ∀ rules : List Rule, toJson rules = toJson (rules.map Rule.alone) := by
    intro rules
    rw [toJson, toJson, write, write, List.map_map]
    rfl
  rw [hwrite policy, hwrite policy', h]

/-- A policy that is merged again with more routes is the policy of all routes, and byte for byte
the same document; merged again alone it is what it was. Only the count of fragments shared with
the predecessor may differ. -/
theorem merge_resumes (defaultHost : String) (done more : List Route) :
    let merged (routes : List Route) := (merge defaultHost (routes.map Route.rule)).value
    (merged ((merged done).map Route.ofRule ++ more)).map Rule.alone =
        (merged (done ++ more)).map Rule.alone ∧
      toJson (merged ((merged done).map Route.ofRule ++ more)) = toJson (merged (done ++ more)) ∧
      (merged ((merged done).map Route.ofRule)).map Rule.alone = (merged done).map Rule.alone := by
  have hresumed : ∀ more : List Route,
      (merge defaultHost (((merge defaultHost (done.map Route.rule)).value.map Route.ofRule ++
        more).map Route.rule)).value.map Rule.alone =
      (merge defaultHost ((done ++ more).map Route.rule)).value.map Rule.alone := by
    intro more
    have hrules : ∀ policy : List Rule, (policy.map Route.ofRule).map Route.rule = policy := by
      intro policy
      rw [List.map_map]
      exact List.map_id policy
    rw [List.map_append, hrules, List.map_append, map_alone_merge_merge]
  have halone := hresumed []
  rw [List.append_nil, List.append_nil] at halone
  exact ⟨hresumed more, toJson_congr (hresumed more), halone⟩

/-- The rule of `/a/d` has another predecessor in the second run. -/
example :
    let done : List Route :=
      [{ rule := { path := "/a/b", method := "GET" } },
        { rule := { path := "/c", method := "PUT" } },
        { rule := { path := "/a/b", method := "\x7b\x7d,PUT" } }, { rule := { path := "/a/d" } }]
    let policy := (merge "*" (done.map Route.rule)).value
    let again := (merge "*" ((policy.map Route.ofRule).map Route.rule)).value
    policy.map (·.method) = ["\x7bGET,\x7d,PUT\x7d", "\x7bPUT\x7d", "\x7b\x7d"] ∧
      policy.map (·.working.sharedFragments) = [0, 0, 1] ∧
      again.map (·.method) = policy.map (·.method) ∧
      again.map (·.working.sharedFragments) = [0, 0, 0] := by
  decide +kernel

end Policy

end RoutePolicy
