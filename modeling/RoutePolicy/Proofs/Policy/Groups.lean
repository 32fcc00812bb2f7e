import RoutePolicy.Policy
import RoutePolicy.Proofs.Rule.Fragments
import RoutePolicy.Proofs.Rule.Methods

/-!
# The entries of a merge as groups

`entries rules` says what the merge has to give, without a word about its loop: for every key that
occurs, in the order of first occurrences, the first rule that has it, with the methods of all rules
that have it and allowed to anyone if one of them is. The loop keeps the entries equal to the groups
of the rules read so far (`add_entries`), so in the end it has the groups of them all
(`value_merge`).
-/

namespace RoutePolicy.Policy

/-- What decides to which entry an annotated rule belongs. -/
def entryKey (r : Rule) : String × String × String := (r.host, r.path, r.working.roleKey)

theorem sameEntry_iff {a b : Rule} : sameEntry a b = true ↔ entryKey a = entryKey b := by
  simp only [sameEntry, entryKey, decide_eq_true_eq, Prod.mk.injEq]

/-- The rules that belong to the entry of `r`, in their order. -/
def group (rules : List Rule) (r : Rule) : List Rule :=
  rules.filter fun other => decide (entryKey other = entryKey r)

def groupTokens (rules : List Rule) (r : Rule) : List String :=
  (group rules r).flatMap Rule.tokens

/-- The entry that `r` opens and the other rules of its key were united with. -/
def groupEntry (rules : List Rule) (r : Rule) : Rule :=
  { r with allowAnyone := (group rules r).any (·.allowAnyone) }.withMethods (groupTokens rules r)

/-- One entry for every key. -/
def entries (rules : List Rule) : List Rule :=
  (distinctBy entryKey rules).map (groupEntry rules)

@[simp] theorem entryKey_groupEntry (rules : List Rule) (r : Rule) :
    entryKey (groupEntry rules r) = entryKey r := rfl

theorem mem_group {rules : List Rule} {r other : Rule} :
    other ∈ group rules r ↔ other ∈ rules ∧ entryKey other = entryKey r := by
  simp only [group, List.mem_filter, decide_eq_true_eq]

theorem mem_groupTokens {rules : List Rule} {r : Rule} {token : String} :
    token ∈ groupTokens rules r ↔
      ∃ other ∈ rules, entryKey other = entryKey r ∧ token ∈ other.tokens := by
  simp only [groupTokens, List.mem_flatMap, mem_group, and_assoc]

theorem groupTokens_ne_nil {rules : List Rule} {r : Rule} (h : r ∈ rules) :
    groupTokens rules r ≠ [] := by
  obtain ⟨token, rest, htokens⟩ := List.exists_cons_of_ne_nil r.tokens_ne_nil
  have hmem : token ∈ groupTokens rules r :=
    mem_groupTokens.2 ⟨r, h, rfl, htokens ▸ List.mem_cons_self⟩
  exact List.ne_nil_of_mem hmem

theorem tokens_groupEntry {rules : List Rule} {r : Rule} (h : r ∈ rules) :
    (groupEntry rules r).tokens = distinct (groupTokens rules r) := by
  apply Rule.tokens_withMethods _ (groupTokens_ne_nil h)
  intro token htoken
  obtain ⟨other, _, _, hother⟩ := mem_groupTokens.1 htoken
  exact other.commaFree_of_mem_tokens hother

/-! ## Rules of other keys -/

theorem group_eq_nil {rules : List Rule} {r : Rule} (h : entryKey r ∉ rules.map entryKey) :
    group rules r = [] := by
  rw [List.eq_nil_iff_forall_not_mem]
  intro other hother
  obtain ⟨hmem, heq⟩ := mem_group.1 hother
  exact h (heq ▸ List.mem_map_of_mem hmem)

theorem groupEntry_append_left {rules more : List Rule} {r : Rule}
    (h : entryKey r ∉ more.map entryKey) : groupEntry (rules ++ more) r = groupEntry rules r := by
  have hgroup : group (rules ++ more) r = group rules r := by
    rw [group, List.filter_append, ← group, ← group, group_eq_nil h, List.append_nil]
  simp only [groupEntry, groupTokens, hgroup]

theorem groupEntry_append_right {rules more : List Rule} {r : Rule}
    (h : entryKey r ∉ rules.map entryKey) : groupEntry (rules ++ more) r = groupEntry more r := by
  have hgroup : group (rules ++ more) r = group more r := by
    rw [group, List.filter_append, ← group, ← group, group_eq_nil h, List.nil_append]
  simp only [groupEntry, groupTokens, hgroup]

/-- Lists without a common key have their entries one after the other. -/
theorem entries_append {rules more : List Rule}
    (h : ∀ r ∈ rules, ∀ other ∈ more, entryKey r ≠ entryKey other) :
    entries (rules ++ more) = entries rules ++ entries more := by
  have hleft : ∀ r ∈ rules, entryKey r ∉ more.map entryKey := by
    intro r hr hmem
    obtain ⟨other, hother, heq⟩ := List.mem_map.1 hmem
    exact h r hr other hother heq.symm
  have hright : ∀ other ∈ more, entryKey other ∉ rules.map entryKey := by
    intro other hother hmem
    obtain ⟨r, hr, heq⟩ := List.mem_map.1 hmem
    exact h r hr other hother heq
  rw [entries, distinctBy_append, List.filter_eq_self.2, List.map_append]
  · rw [List.map_congr_left fun r hr => groupEntry_append_left (hleft r (mem_of_mem_distinctBy hr)),
      List.map_congr_left fun r hr => groupEntry_append_right (hright r (mem_of_mem_distinctBy hr))]
    rfl
  · intro other hother
    simpa using hright other (mem_of_mem_distinctBy hother)

theorem entries_of_forall_eq {first : Rule} {rules : List Rule}
    (h : ∀ r ∈ rules, entryKey r = entryKey first) :
    entries (first :: rules) =
      [{ first with allowAnyone := (first :: rules).any (·.allowAnyone) }.withMethods
        ((first :: rules).flatMap Rule.tokens)] := by
  have hdistinct : distinctBy entryKey (first :: rules) = [first] := by
    rw [distinctBy, List.filter_eq_nil_iff.2]
    intro r hr
    have heq : entryKey r = entryKey first := h r (mem_of_mem_distinctBy hr)
    simp [heq]
  have hgroup : group (first :: rules) first = first :: rules := by
    apply List.filter_eq_self.2
    intro r hr
    rcases List.mem_cons.1 hr with rfl | hr
    · exact decide_eq_true rfl
    · exact decide_eq_true (h r hr)
  rw [entries, hdistinct, List.map_singleton, groupEntry, groupTokens, hgroup]

/-! ## One more rule -/

theorem group_snoc (rules : List Rule) (r first : Rule) :
    group (rules ++ [r]) first =
      group rules first ++ if entryKey r = entryKey first then [r] else [] := by
  rw [group, List.filter_append, ← group]
  by_cases h : entryKey r = entryKey first
  · rw [if_pos h, List.filter_singleton, decide_eq_true h, cond_true]
  · rw [if_neg h, List.filter_singleton, decide_eq_false h, cond_false]

theorem groupEntry_snoc_of_ne {rules : List Rule} {r first : Rule}
    (h : entryKey first ≠ entryKey r) :
    groupEntry (rules ++ [r]) first = groupEntry rules first := by
  apply groupEntry_append_left
  rwa [List.map_singleton, List.mem_singleton]

theorem groupEntry_snoc_of_eq {rules : List Rule} {r first : Rule}
    (h : entryKey first = entryKey r) :
    groupEntry (rules ++ [r]) first = unite (groupEntry rules first) r := by
  have htokens : groupTokens (rules ++ [r]) first = groupTokens rules first ++ r.tokens := by
    rw [groupTokens, group_snoc, if_pos h.symm, List.flatMap_append, ← groupTokens,
      List.flatMap_singleton]
  have hanyone : (group (rules ++ [r]) first).any (·.allowAnyone) =
      ((group rules first).any (·.allowAnyone) || r.allowAnyone) := by
    rw [group_snoc, if_pos h.symm, List.any_append, List.any_cons, List.any_nil, Bool.or_false]
  rw [groupEntry, htokens, hanyone]
  simp only [unite, groupEntry, Rule.withMethods, distinct_distinct_append]

theorem groupEntry_snoc_self {rules : List Rule} {r : Rule}
    (h : entryKey r ∉ rules.map entryKey) : groupEntry (rules ++ [r]) r = openEntry r := by
  have hgroup : group (rules ++ [r]) r = [r] := by
    rw [group_snoc, group_eq_nil h, if_pos rfl, List.nil_append]
  rw [groupEntry, groupTokens, hgroup]
  simp only [List.any_cons, List.any_nil, Bool.or_false, List.flatMap_cons, List.flatMap_nil,
    List.append_nil, openEntry]

/-! ## The loop -/

theorem add_of_forall_ne {es : List Rule} {r : Rule}
    (h : ∀ entry ∈ es, entryKey entry ≠ entryKey r) : add es r = ⟨es ++ [openEntry r], []⟩ := by
  induction es with
  | nil => rfl
  | cons entry es ih =>
    have hne : ¬ sameEntry entry r = true :=
      fun same => h entry List.mem_cons_self (sameEntry_iff.1 same)
    rw [add, if_neg hne, ih fun other hother => h other (List.mem_cons_of_mem entry hother)]
    rfl

/-- A rule whose key the entry at a place has, and none before it, is united with that entry. -/
theorem add_of_eq {before after : List Rule} {entry r : Rule}
    (hbefore : ∀ other ∈ before, entryKey other ≠ entryKey r)
    (h : entryKey entry = entryKey r) :
    add (before ++ entry :: after) r =
      ⟨before ++ unite entry r :: after, [.merged (unite entry r).path (unite entry r).method]⟩ := by
  induction before with
  | nil =>
    rw [List.nil_append, add, if_pos (sameEntry_iff.2 h)]
    rfl
  | cons other before ih =>
    have hne : ¬ sameEntry other r = true :=
      fun same => hbefore other List.mem_cons_self (sameEntry_iff.1 same)
    rw [List.cons_append, add, if_neg hne,
      ih fun x hx => hbefore x (List.mem_cons_of_mem other hx)]
    rfl

theorem group_congr {rules : List Rule} {r first : Rule} (h : entryKey first = entryKey r) :
    group rules first = group rules r := by
  rw [group, group, h]

theorem entries_snoc_of_not_mem {done : List Rule} {r : Rule}
    (h : entryKey r ∉ done.map entryKey) : entries (done ++ [r]) = entries done ++ [openEntry r] := by
  rw [entries, distinctBy_snoc, if_neg h, List.map_append, List.map_singleton,
    groupEntry_snoc_self h]
  refine congrArg (· ++ _) (List.map_congr_left fun first hfirst => ?_)
  apply groupEntry_snoc_of_ne
  intro heq
  exact h (heq ▸ List.mem_map_of_mem (mem_of_mem_distinctBy hfirst))

/-- One rule more changes just the entry of its key. -/
theorem entries_snoc_of_mem {done : List Rule} {r : Rule} (h : entryKey r ∈ done.map entryKey) :
    ∃ before first after,
      entries done = before ++ groupEntry done first :: after ∧
      entries (done ++ [r]) = before ++ groupEntry (done ++ [r]) first :: after ∧
      entryKey first = entryKey r ∧ ∀ entry ∈ before, entryKey entry ≠ entryKey r := by
  obtain ⟨first, hfirst, hkey⟩ := List.mem_map.1 ((mem_keys_distinctBy entryKey).2 h)
  obtain ⟨before, after, hsplit⟩ := List.append_of_mem hfirst
  have hnodup := nodup_keys_distinctBy entryKey done
  rw [hsplit, List.map_append, List.map_cons, List.nodup_append, List.nodup_cons] at hnodup
  have hbefore : ∀ other ∈ before, entryKey other ≠ entryKey r := by
    intro other hother heq
    exact hnodup.2.2 _ (List.mem_map_of_mem hother) _ List.mem_cons_self (heq.trans hkey.symm)
  have hafter : ∀ other ∈ after, entryKey other ≠ entryKey r := by
    intro other hother heq
    exact hnodup.2.1.1 (hkey.trans heq.symm ▸ List.mem_map_of_mem hother)
  refine ⟨before.map (groupEntry done), first, after.map (groupEntry done), ?_, ?_, hkey, ?_⟩
  · rw [entries, hsplit, List.map_append, List.map_cons]
  · rw [entries, distinctBy_snoc, if_pos h, List.append_nil, hsplit, List.map_append,
      List.map_cons]
    rw [List.map_congr_left fun other hother => groupEntry_snoc_of_ne (hbefore other hother),
      List.map_congr_left fun other hother => groupEntry_snoc_of_ne (hafter other hother)]
  · intro entry hentry
    obtain ⟨other, hother, rfl⟩ := List.mem_map.1 hentry
    exact hbefore other hother

def addEvents (done : List Rule) (r : Rule) : List Event :=
  if entryKey r ∈ done.map entryKey then
    [.merged r.path (Rule.bracedMethods (distinct (groupTokens (done ++ [r]) r)))]
  else []

/-- Adding a rule to the groups of the rules before it gives the groups with it. -/
theorem add_entries (done : List Rule) (r : Rule) :
    add (entries done) r = ⟨entries (done ++ [r]), addEvents done r⟩ := by
  by_cases h : entryKey r ∈ done.map entryKey
  · obtain ⟨before, first, after, hdone, hmore, hkey, hbefore⟩ := entries_snoc_of_mem h
    have hunite : groupEntry (done ++ [r]) first = unite (groupEntry done first) r :=
      groupEntry_snoc_of_eq hkey
    have hpath : (groupEntry (done ++ [r]) first).path = r.path := (Prod.mk.inj (Prod.mk.inj hkey).2).1
    have hmethod : (groupEntry (done ++ [r]) first).method =
        Rule.bracedMethods (distinct (groupTokens (done ++ [r]) r)) := by
      rw [groupTokens, ← group_congr hkey]
      rfl
    have hentry : entryKey (groupEntry done first) = entryKey r := hkey
    rw [addEvents, if_pos h, hmore, hdone, add_of_eq hbefore hentry, ← hunite, hpath, hmethod]
  · have hne : ∀ entry ∈ entries done, entryKey entry ≠ entryKey r := by
      intro entry hentry heq
      obtain ⟨first, hfirst, rfl⟩ := List.mem_map.1 hentry
      have hmem := List.mem_map_of_mem (f := entryKey) (mem_of_mem_distinctBy hfirst)
      rw [entryKey_groupEntry] at heq
      exact h (heq ▸ hmem)
    rw [addEvents, if_neg h, add_of_forall_ne hne, entries_snoc_of_not_mem h]

/-- The entries of a run are the groups of all its rules. -/
theorem value_addAll (done rules : List Rule) :
    (addAll (entries done) rules).value = entries (done ++ rules) := by
  induction rules generalizing done with
  | nil => rw [addAll, List.append_nil]
  | cons r rules ih =>
    have hstep : done ++ r :: rules = done ++ [r] ++ rules := by
      rw [List.append_assoc, List.singleton_append]
    rw [addAll, add_entries, Logged.after, ih, hstep]

/-- A run over a longer list goes on from the entries of the shorter one. -/
theorem value_addAll_append (es rules more : List Rule) :
    (addAll es (rules ++ more)).value = (addAll (addAll es rules).value more).value := by
  induction rules generalizing es with
  | nil => rfl
  | cons r rules ih =>
    rw [List.cons_append, addAll, addAll]
    exact ih _

/-! ## The merge -/

/-- The rules as the loop takes them: annotated, and none without a host. -/
def prepared (defaultHost : String) (rules : List Rule) : List Rule :=
  (Rule.annotateAll rules).map (Rule.withHost defaultHost)

theorem published_withHost (defaultHost : String) (r : Rule) :
    (r.withHost defaultHost).published = r.published.withHost defaultHost := by
  rw [Rule.withHost_eq, Rule.withHost_eq]
  rfl

theorem published_prepared (defaultHost : String) (rules : List Rule) :
    (prepared defaultHost rules).map Rule.published =
      (rules.map (Rule.withHost defaultHost)).map Rule.published := by
  have hcomm : Rule.published ∘ Rule.withHost defaultHost =
      Rule.withHost defaultHost ∘ Rule.published := by
    funext r
    exact published_withHost defaultHost r
  rw [prepared, List.map_map, List.map_map, hcomm, ← List.map_map, ← List.map_map,
    Rule.published_annotateAll]

theorem roleKey_of_mem_prepared {defaultHost : String} {rules : List Rule} {r : Rule}
    (h : r ∈ prepared defaultHost rules) : r.working.roleKey = r.roleKey := by
  obtain ⟨a, ha, rfl⟩ := List.mem_map.1 h
  have hkey : a.working.roleKey = a.roleKey := Rule.roleKey_of_mem_annotateAll ha
  rw [Rule.withHost_eq]
  exact hkey

theorem map_numberFrom {α : Type} {f : Rule → α} (h : ∀ r id, f { r with id := id } = f r)
    (next : Nat) (rules : List Rule) : (numberFrom next rules).map f = rules.map f := by
  induction rules generalizing next with
  | nil => rfl
  | cons r rules ih => rw [numberFrom, List.map_cons, List.map_cons, h, ih]

theorem numberFrom_eq_mapIdx (next : Nat) (rules : List Rule) :
    numberFrom next rules = rules.mapIdx fun i r => { r with id := Int64.ofNat (next + i) } := by
  induction rules generalizing next with
  | nil => rfl
  | cons r rules ih =>
    rw [numberFrom, ih, List.mapIdx_cons]
    have hnext : ∀ i, next + 1 + i = next + (i + 1) := by omega
    simp only [hnext]
    rfl

theorem published_numberFrom (next : Nat) (rules : List Rule) :
    (numberFrom next rules).map Rule.published =
      (rules.map Rule.published).mapIdx fun i r => { r with id := Int64.ofNat (next + i) } := by
  rw [numberFrom_eq_mapIdx]
  apply List.ext_getElem
  · simp only [List.length_map, List.length_mapIdx]
  · intro i _ _
    simp only [List.getElem_map, List.getElem_mapIdx]
    rfl

theorem value_merge (defaultHost : String) (rules : List Rule) :
    (merge defaultHost rules).value = numberFrom 1 (entries (prepared defaultHost rules)) :=
  congrArg (numberFrom 1) (value_addAll [] (prepared defaultHost rules))

end RoutePolicy.Policy
