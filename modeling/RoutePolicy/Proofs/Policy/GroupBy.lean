import RoutePolicy.Proofs.Policy.Groups

/-!
# Merging as grouping

What a merge gives, told from its records alone: a document for every key, in the order in which the
keys first occur, and a report for every record that is not the first of its key. The loop works on
annotated records with their hosts filled in. It looks at no more of a record than its key, its
methods and whether anyone is allowed, and these the record has before it is prepared
(`map_seen_prepared`), whatever its working fields hold.
-/

namespace RoutePolicy.Policy

variable (defaultHost : String)

/-- What decides to which document a record belongs: its host, or the default one where it has none,
its path and the key of its roles. -/
def mergeKey (r : Rule) : String × String × String :=
  (if r.host = "" then defaultHost else r.host, r.path, r.roleKey)

/-- The records with the key of `r`, in their order. -/
def peers (rules : List Rule) (r : Rule) : List Rule :=
  rules.filter fun other => decide (mergeKey defaultHost other = mergeKey defaultHost r)

/-- The methods of the records with the key of `r`, each at its first occurrence. -/
def peerMethods (rules : List Rule) (r : Rule) : List String :=
  distinct ((peers defaultHost rules r).flatMap Rule.tokens)

/-- The document at a place, given the first annotated record of its key. -/
def document (rules : List Rule) (place : Nat) (first : Rule) : Rule where
  id := Int64.ofNat (place + 1)
  host := if first.host = "" then defaultHost else first.host
  path := first.path
  method := Rule.bracedMethods (peerMethods defaultHost rules first)
  authorizedRoles := first.authorizedRoles
  forbiddenRoles := first.forbiddenRoles
  allowAnyone := (peers defaultHost rules first).any (·.allowAnyone)
  working := { first.working with methods := peerMethods defaultHost rules first }

def reportOf (done : List Rule) (r : Rule) : List Event :=
  if done.any fun other => decide (mergeKey defaultHost other = mergeKey defaultHost r) then
    [.merged r.path (Rule.bracedMethods (peerMethods defaultHost (done ++ [r]) r))]
  else []

/-! ## What the loop looks at -/

/-- All that the loop looks at in a prepared record to find and to unite its entry. -/
def seen (p : Rule) : (String × String × String) × List String × Bool :=
  (entryKey p, p.tokens, p.allowAnyone)

/-- The same of a record as it was given. -/
def given (r : Rule) : (String × String × String) × List String × Bool :=
  (mergeKey defaultHost r, r.tokens, r.allowAnyone)

variable {defaultHost} {rules done done' : List Rule} {p r : Rule}

theorem mem_peers {other : Rule} :
    other ∈ peers defaultHost rules r ↔
      other ∈ rules ∧ mergeKey defaultHost other = mergeKey defaultHost r := by
  simp only [peers, List.mem_filter, decide_eq_true_eq]

theorem entryKey_withHost (h : r ∈ Rule.annotateAll rules) :
    entryKey (r.withHost defaultHost) = mergeKey defaultHost r := by
  rw [Rule.withHost_eq, entryKey, mergeKey, ← Rule.roleKey_of_mem_annotateAll h]

theorem map_seen_prepared (defaultHost : String) (rules : List Rule) :
    (prepared defaultHost rules).map seen = rules.map (given defaultHost) := by
  have hannotated : (Rule.annotateAll rules).map (given defaultHost) =
      rules.map (given defaultHost) := by
    have hpublished := congrArg (List.map (given defaultHost)) (Rule.published_annotateAll rules)
    rwa [List.map_map, List.map_map] at hpublished
  rw [← hannotated, prepared, List.map_map]
  refine List.map_congr_left fun r hr => ?_
  rw [Function.comp_apply, seen, entryKey_withHost hr, Rule.withHost_eq]
  rfl

theorem map_entryKey_eq (h : done.map seen = done'.map (given defaultHost)) :
    done.map entryKey = done'.map (mergeKey defaultHost) := by
  have hfirst := congrArg (List.map Prod.fst) h
  rwa [List.map_map, List.map_map] at hfirst

theorem map_group_eq (h : done.map seen = done'.map (given defaultHost))
    (hkey : entryKey p = mergeKey defaultHost r) :
    (group done p).map seen = (peers defaultHost done' r).map (given defaultHost) := by
  have hfilter := congrArg (List.filter fun s => decide (s.1 = mergeKey defaultHost r)) h
  rw [List.filter_map, List.filter_map] at hfilter
  rw [group, hkey]
  exact hfilter

theorem groupTokens_eq (h : done.map seen = done'.map (given defaultHost))
    (hkey : entryKey p = mergeKey defaultHost r) :
    groupTokens done p = (peers defaultHost done' r).flatMap Rule.tokens := by
  have htokens := congrArg (List.flatMap fun s => s.2.1) (map_group_eq h hkey)
  rwa [List.flatMap_map, List.flatMap_map] at htokens

theorem any_group_eq (h : done.map seen = done'.map (given defaultHost))
    (hkey : entryKey p = mergeKey defaultHost r) :
    (group done p).any (·.allowAnyone) = (peers defaultHost done' r).any (·.allowAnyone) := by
  have hany := congrArg (List.any · fun s => s.2.2) (map_group_eq h hkey)
  simp only [List.any_map] at hany
  exact hany

/-! ## Documents -/

theorem groupEntry_eq_document (place : Nat) (h : r ∈ Rule.annotateAll rules) :
    { groupEntry (prepared defaultHost rules) (r.withHost defaultHost) with
      id := Int64.ofNat (1 + place) } = document defaultHost rules place r := by
  have hkey : entryKey (r.withHost defaultHost) = mergeKey defaultHost r := entryKey_withHost h
  have hseen := map_seen_prepared defaultHost rules
  rw [groupEntry, groupTokens_eq hseen hkey, any_group_eq hseen hkey, Rule.withHost_eq, Nat.add_comm]
  rfl

theorem value_merge_eq (defaultHost : String) (rules : List Rule) :
    (merge defaultHost rules).value =
      (distinctBy (mergeKey defaultHost) (Rule.annotateAll rules)).mapIdx
        (document defaultHost rules) := by
  have hdistinct : distinctBy entryKey (prepared defaultHost rules) =
      (distinctBy (mergeKey defaultHost) (Rule.annotateAll rules)).map
        (Rule.withHost defaultHost) := by
    rw [prepared, distinctBy_map]
    exact congrArg _ (distinctBy_congr fun r hr => entryKey_withHost hr)
  rw [value_merge, entries, hdistinct, List.map_map, numberFrom_eq_mapIdx]
  apply List.ext_getElem
  · simp only [List.length_map, List.length_mapIdx]
  · intro i hi _
    simp only [List.getElem_mapIdx, List.getElem_map]
    exact groupEntry_eq_document i (mem_of_mem_distinctBy (List.getElem_mem _))

theorem keys_merge (defaultHost : String) (rules : List Rule) :
    (merge defaultHost rules).value.map entryKey = distinct (rules.map (mergeKey defaultHost)) := by
  have hprepared := map_entryKey_eq (map_seen_prepared defaultHost rules)
  rw [value_merge, map_numberFrom (fun _ _ => rfl), entries, List.map_map, ← hprepared,
    ← map_key_distinctBy]
  rfl

/-! ## Reports -/

theorem events_addAll (done rules : List Rule) :
    (addAll (entries done) rules).events =
      (rules.mapIdx fun i r => addEvents (done ++ rules.take i) r).flatten := by
  -- the entries are always the groups of the records before, so each step is one of `add_entries`
  induction rules generalizing done with
  | nil => rfl
  | cons r rules ih =>
    rw [addAll, add_entries, Logged.after, ih, List.mapIdx_cons, List.flatten_cons, List.take_zero,
      List.append_nil]
    simp only [List.take_succ_cons, List.append_assoc, List.singleton_append]

theorem any_key_iff :
    (done.any fun other => decide (mergeKey defaultHost other = mergeKey defaultHost r)) = true ↔
      mergeKey defaultHost r ∈ done.map (mergeKey defaultHost) := by
  simp only [List.any_eq_true, decide_eq_true_eq, List.mem_map]

theorem addEvents_eq_reportOf (hdone : done.map seen = done'.map (given defaultHost))
    (hp : seen p = given defaultHost r) : addEvents done p = reportOf defaultHost done' r := by
  have hkey : entryKey p = mergeKey defaultHost r := (Prod.mk.inj hp).1
  have hpath : p.path = r.path := (Prod.mk.inj (Prod.mk.inj hkey).2).1
  have hsnoc : (done ++ [p]).map seen = (done' ++ [r]).map (given defaultHost) := by
    rw [List.map_append, List.map_append, hdone, List.map_singleton, List.map_singleton, hp]
  rw [addEvents, map_entryKey_eq hdone, hkey, hpath, groupTokens_eq hsnoc hkey]
  simp only [reportOf, any_key_iff, peerMethods]

theorem events_merge (defaultHost : String) (rules : List Rule) :
    (merge defaultHost rules).events =
      (rules.mapIdx fun i r => reportOf defaultHost (rules.take i) r).flatten := by
  have hseen := map_seen_prepared defaultHost rules
  refine (events_addAll [] (prepared defaultHost rules)).trans (congrArg List.flatten ?_)
  apply List.ext_getElem
  · rw [List.length_mapIdx, List.length_mapIdx]
    simpa only [List.length_map] using congrArg List.length hseen
  · intro i hi hi'
    rw [List.getElem_mapIdx, List.getElem_mapIdx, List.nil_append]
    apply addEvents_eq_reportOf
    · rw [List.map_take, List.map_take, hseen]
    · have hget := List.getElem_of_eq hseen (by simpa using hi)
      simpa only [List.getElem_map] using hget

/-! ## Counting -/

/-- A record either opens an entry or is reported. -/
theorem length_add (es : List Rule) (r : Rule) :
    (add es r).value.length + (add es r).events.length = es.length + 1 := by
  induction es with
  | nil => rfl
  | cons entry es ih =>
    rw [add]
    split
    · rfl
    · simp only [Logged.map, List.length_cons]
      omega

theorem length_addAll (es rules : List Rule) :
    (addAll es rules).value.length + (addAll es rules).events.length = es.length + rules.length := by
  induction rules generalizing es with
  | nil => rfl
  | cons r rules ih =>
    have hstep := length_add es r
    have hrun := ih (add es r).value
    simp only [addAll, Logged.after, List.length_append, List.length_cons]
    omega

theorem length_merge (defaultHost : String) (rules : List Rule) :
    (merge defaultHost rules).value.length + (merge defaultHost rules).events.length =
      rules.length := by
  have hrun := length_addAll [] (prepared defaultHost rules)
  have hlength : (prepared defaultHost rules).length = rules.length := by
    rw [prepared, List.length_map]
    exact Rule.length_annotateAfter none rules
  have hevents : (merge defaultHost rules).events =
      (addAll [] (prepared defaultHost rules)).events := rfl
  have hvalue : (merge defaultHost rules).value.length =
      (addAll [] (prepared defaultHost rules)).value.length := by
    rw [merge, Logged.map, numberFrom_eq_mapIdx, List.length_mapIdx]
    rfl
  rw [hvalue, hevents, hrun, List.length_nil, Nat.zero_add, hlength]

/-- A merge gives one document for every key, in the order of first occurrences and numbered from 1:
the first record of the key as annotated, with its host filled in, the methods of all records of the
key and the flag that one of them has. Every other record is reported, with the methods of its key
up to it. -/
theorem merge_groups_by_key (defaultHost : String) (rules : List Rule) :
    (merge defaultHost rules).value =
        (distinctBy (mergeKey defaultHost) (Rule.annotateAll rules)).mapIdx
          (document defaultHost rules) ∧
      (merge defaultHost rules).value.map entryKey = distinct (rules.map (mergeKey defaultHost)) ∧
      (merge defaultHost rules).events =
        (rules.mapIdx fun i r => reportOf defaultHost (rules.take i) r).flatten ∧
      (merge defaultHost rules).value.length + (merge defaultHost rules).events.length =
        rules.length :=
  ⟨value_merge_eq defaultHost rules, keys_merge defaultHost rules, events_merge defaultHost rules,
    length_merge defaultHost rules⟩

example :
    let merged := merge "*" [{ path := "/a", method := "\x7bGET,PUT,GET\x7d" },
      { path := "/a", method := "POST", host := "h" },
      { path := "/a", method := "PUT,POST\x7d", host := "*", allowAnyone := true }]
    merged.value =
        [{ id := 1, host := "*", path := "/a", method := "\x7bGET,PUT,POST\x7d"
           allowAnyone := true
           working := { methods := ["GET", "PUT", "POST"], roleKey := "+-", fragments := ["a"] } },
          { id := 2, host := "h", path := "/a", method := "\x7bPOST\x7d"
            working := { methods := ["POST"], roleKey := "+-", fragments := ["a"]
                         sharedFragments := 1 } }] ∧
      merged.events = [.merged "/a" "\x7bGET,PUT,POST\x7d"] := by
  decide +kernel

end RoutePolicy.Policy
