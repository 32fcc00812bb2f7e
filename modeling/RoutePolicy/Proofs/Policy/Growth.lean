import RoutePolicy.Proofs.Policy.Groups

/-!
# Merging with more records

Records that are found behind others leave the documents of those where they are. The loop changes
an entry only by uniting it with a record, which adds methods behind those that are there and may
allow the routes to anyone, and it opens entries only at the end (`extends_add`). So the policy of a
longer list is that of the shorter one, grown in place, with more documents behind it.
-/

namespace RoutePolicy.Policy

/-- A document as it is after more records were united with it. -/
structure GrowsTo (d d' : Rule) : Prop where
  id : d.id = d'.id
  host : d.host = d'.host
  path : d.path = d'.path
  authorizedRoles : d.authorizedRoles = d'.authorizedRoles
  forbiddenRoles : d.forbiddenRoles = d'.forbiddenRoles
  roleKey : d.working.roleKey = d'.working.roleKey
  fragments : d.working.fragments = d'.working.fragments
  sharedFragments : d.working.sharedFragments = d'.working.sharedFragments
  methods : d.working.methods <+: d'.working.methods
  allowAnyone : d.allowAnyone = true → d'.allowAnyone = true

theorem GrowsTo.refl (d : Rule) : GrowsTo d d :=
  ⟨rfl, rfl, rfl, rfl, rfl, rfl, rfl, rfl, List.prefix_rfl, fun h => h⟩

theorem GrowsTo.trans {d d' d'' : Rule} (h : GrowsTo d d') (h' : GrowsTo d' d'') :
    GrowsTo d d'' where
  id := h.id.trans h'.id
  host := h.host.trans h'.host
  path := h.path.trans h'.path
  authorizedRoles := h.authorizedRoles.trans h'.authorizedRoles
  forbiddenRoles := h.forbiddenRoles.trans h'.forbiddenRoles
  roleKey := h.roleKey.trans h'.roleKey
  fragments := h.fragments.trans h'.fragments
  sharedFragments := h.sharedFragments.trans h'.sharedFragments
  methods := h.methods.trans h'.methods
  allowAnyone := fun hanyone => h'.allowAnyone (h.allowAnyone hanyone)

/-- A list of entries begins with the entries of another one, each of them grown. -/
inductive Extends : List Rule → List Rule → Prop
  | opened (more : List Rule) : Extends [] more
  | grown {e e' : Rule} {es es' : List Rule} (first : GrowsTo e e') (others : Extends es es') :
    Extends (e :: es) (e' :: es')

variable {es es' es'' : List Rule} {entry : Rule}

theorem Extends.refl : ∀ es : List Rule, Extends es es
  | [] => .opened []
  | e :: es => .grown (.refl e) (.refl es)

theorem Extends.trans (h : Extends es es') (h' : Extends es' es'') : Extends es es'' := by
  induction h generalizing es'' with
  | opened => exact .opened es''
  | grown first _ ih =>
    cases h' with
    | grown first' others' => exact .grown (first.trans first') (ih others')

theorem Extends.numberFrom (h : Extends es es') (next : Nat) :
    Extends (numberFrom next es) (numberFrom next es') := by
  induction h generalizing next with
  | opened => exact .opened _
  | grown first _ ih => exact .grown { first with id := rfl } (ih (next + 1))

theorem Extends.length_le (h : Extends es es') : es.length ≤ es'.length := by
  induction h with
  | opened => exact Nat.zero_le _
  | grown _ _ ih => exact Nat.succ_le_succ ih

theorem Extends.exists_getElem? (h : Extends es es') (i : Fin es.length) :
    ∃ d, es'[i.val]? = some d ∧ GrowsTo (es.get i) d := by
  induction h with
  | opened => exact i.elim0
  | grown first _ ih =>
    cases i using Fin.cases with
    | zero => exact ⟨_, rfl, first⟩
    | succ i => exact ih i

/-! ## One more record -/

/-- No entry tells a method twice. -/
def Tidy (es : List Rule) : Prop := ∀ e ∈ es, e.working.methods.Nodup

theorem prefix_distinct_append {xs : List String} (h : xs.Nodup) (ys : List String) :
    xs <+: distinct (xs ++ ys) := by
  rw [distinct, distinctBy_append, distinctBy_eq_self (by rwa [List.map_id])]
  exact List.prefix_append _ _

theorem growsTo_unite (h : entry.working.methods.Nodup) (r : Rule) :
    GrowsTo entry (unite entry r) where
  id := rfl
  host := rfl
  path := rfl
  authorizedRoles := rfl
  forbiddenRoles := rfl
  roleKey := rfl
  fragments := rfl
  sharedFragments := rfl
  methods := prefix_distinct_append h r.tokens
  allowAnyone := fun hanyone => Bool.or_eq_true_iff.2 (.inl hanyone)

theorem extends_add (tidy : Tidy es) (r : Rule) : Extends es (add es r).value := by
  induction es with
  | nil => exact .opened _
  | cons entry es ih =>
    obtain ⟨hentry, hes⟩ := List.forall_mem_cons.1 tidy
    rw [add]
    split
    · exact .grown (growsTo_unite hentry r) (.refl es)
    · exact .grown (.refl entry) (ih hes)

theorem tidy_add (tidy : Tidy es) (r : Rule) : Tidy (add es r).value := by
  induction es with
  | nil => exact List.forall_mem_singleton.2 (nodup_distinct r.tokens)
  | cons entry es ih =>
    obtain ⟨hentry, hes⟩ := List.forall_mem_cons.1 tidy
    rw [add]
    split
    · exact List.forall_mem_cons.2 ⟨nodup_distinct _, hes⟩
    · exact List.forall_mem_cons.2 ⟨hentry, ih hes⟩

/-! ## A whole run -/

theorem extends_addAll (tidy : Tidy es) (rules : List Rule) :
    Extends es (addAll es rules).value := by
  induction rules generalizing es with
  | nil => exact .refl es
  | cons r rules ih => exact (extends_add tidy r).trans (ih (tidy_add tidy r))

theorem tidy_addAll (tidy : Tidy es) (rules : List Rule) : Tidy (addAll es rules).value := by
  induction rules generalizing es with
  | nil => exact tidy
  | cons r rules ih => exact ih (tidy_add tidy r)

/-- How a record is prepared does not depend on the records behind it. -/
theorem exists_prepared_append (defaultHost : String) (rules more : List Rule) :
    ∃ later, prepared defaultHost (rules ++ more) = prepared defaultHost rules ++ later := by
  obtain ⟨last, hlast⟩ := Rule.exists_annotateAfter_append none rules more
  refine ⟨(Rule.annotateAfter last more).map (Rule.withHost defaultHost), ?_⟩
  rw [prepared, Rule.annotateAll, hlast, List.map_append]
  rfl

theorem extends_merge (defaultHost : String) (rules more : List Rule) :
    Extends (merge defaultHost rules).value (merge defaultHost (rules ++ more)).value := by
  obtain ⟨later, hlater⟩ := exists_prepared_append defaultHost rules more
  have hrun : (merge defaultHost (rules ++ more)).value =
      numberFrom 1 (addAll (addAll [] (prepared defaultHost rules)).value later).value := by
    rw [← value_addAll_append, ← hlater]
    rfl
  have tidy : Tidy (addAll [] (prepared defaultHost rules)).value :=
    tidy_addAll (fun _ h => absurd h List.not_mem_nil) _
  rw [hrun]
  exact (extends_addAll tidy later).numberFrom 1

/-- More records behind others give at least as many documents. Every document of the others is
found at its place, with its number and all that it had; only methods may have been added behind
those that it had, and it may be allowed to anyone now. -/
theorem merge_append_extends (defaultHost : String) (rules more : List Rule) :
    let docs := (merge defaultHost rules).value
    let docs' := (merge defaultHost (rules ++ more)).value
    docs.length ≤ docs'.length ∧
      ∀ i : Fin docs.length, ∃ d, docs'[i.val]? = some d ∧ GrowsTo (docs.get i) d :=
  ⟨(extends_merge defaultHost rules more).length_le,
    (extends_merge defaultHost rules more).exists_getElem?⟩

/-- The first document has one method more and is open now, the second one is as it was, and the
third one is new. -/
example :
    let rules : List Rule :=
      [{ path := "/a/b", method := "GET" }, { path := "/a", method := "GET" }]
    let more : List Rule :=
      [{ path := "/c" }, { path := "/a/b", method := "\x7bPUT,GET\x7d", allowAnyone := true }]
    (merge "*" (rules ++ more)).value.map
        (fun d => (d.path, d.working.methods, d.working.sharedFragments, d.allowAnyone)) =
      [("/a/b", ["GET", "PUT"], 0, true), ("/a", ["GET"], 1, false), ("/c", [""], 0, false)] := by
  decide +kernel

end RoutePolicy.Policy
