import RoutePolicy.Route.Fragments

/-!
# What annotating changes

Annotating fills working fields and nothing else, and what it fills in depends on the rule's own
roles and path, apart from the count of shared fragments. That count is told by two neighbours
alone: the loop carries an annotated rule along, but reads only what it has filled in there.
-/

namespace RoutePolicy.Rule

theorem published_annotateAfter (previous : Option Rule) (rules : List Rule) :
    (annotateAfter previous rules).map published = rules.map published := by
  induction rules generalizing previous with
  | nil => rfl
  | cons r rules ih =>
    rw [annotateAfter, List.map_cons, List.map_cons, ih]
    rfl

theorem published_annotateAll (rules : List Rule) :
    (annotateAll rules).map published = rules.map published :=
  published_annotateAfter none rules

/-- Every annotated rule is one of the given rules, annotated behind some rule or as the first. -/
theorem exists_annotate_of_mem {previous : Option Rule} {rules : List Rule} {r : Rule}
    (h : r ∈ annotateAfter previous rules) : ∃ given ∈ rules, ∃ before, r = given.annotate before := by
  induction rules generalizing previous with
  | nil => exact absurd h List.not_mem_nil
  | cons first rules ih =>
    rcases List.mem_cons.1 h with rfl | h
    · exact ⟨first, List.mem_cons_self, previous, rfl⟩
    · obtain ⟨given, hgiven, before, hr⟩ := ih h
      exact ⟨given, List.mem_cons_of_mem first hgiven, before, hr⟩

variable {rules : List Rule} {r : Rule}

theorem roleKey_of_mem_annotateAll (h : r ∈ annotateAll rules) : r.working.roleKey = r.roleKey := by
  obtain ⟨given, -, before, rfl⟩ := exists_annotate_of_mem h
  rfl

theorem fragments_of_mem_annotateAll (h : r ∈ annotateAll rules) :
    r.working.fragments = fragmentsOf r.path := by
  obtain ⟨given, -, before, rfl⟩ := exists_annotate_of_mem h
  rfl

theorem exists_published_of_mem_annotateAll (h : r ∈ annotateAll rules) :
    ∃ given ∈ rules, given.published = r.published := by
  obtain ⟨given, hgiven, before, rfl⟩ := exists_annotate_of_mem h
  exact ⟨given, hgiven, rfl⟩

/-- The rules of a longer list are annotated as before, and those behind them follow the last. -/
theorem exists_annotateAfter_append (previous : Option Rule) (rules more : List Rule) :
    ∃ last, annotateAfter previous (rules ++ more) =
      annotateAfter previous rules ++ annotateAfter last more := by
  induction rules generalizing previous with
  | nil => exact ⟨previous, rfl⟩
  | cons r rules ih =>
    obtain ⟨last, hlast⟩ := ih (some (r.annotate previous))
    exact ⟨last, congrArg (r.annotate previous :: ·) hlast⟩

/-! ## Shared fragments -/

/-- The lists agree in their first `n` items, and there the agreement ends: a list is used up or the
next items differ. -/
structure AgreesFor (xs ys : List String) (n : Nat) : Prop where
  left : n ≤ xs.length
  right : n ≤ ys.length
  take : xs.take n = ys.take n
  stop : xs.length = n ∨ ys.length = n ∨ xs[n]? ≠ ys[n]?

theorem AgreesFor.le {xs ys : List String} {n n' : Nat} (h : AgreesFor xs ys n)
    (h' : AgreesFor xs ys n') : n' ≤ n := by
  refine Nat.le_of_not_lt fun hlt => ?_
  have hitem : xs[n]? = ys[n]? := by
    have htake := congrArg (fun list => list[n]?) h'.take
    simp only [List.getElem?_take_of_lt hlt] at htake
    exact htake
  have hleft := h'.left
  have hright := h'.right
  obtain hend | hend | hend := h.stop
  · omega
  · omega
  · exact hend hitem

theorem AgreesFor.unique {xs ys : List String} {n n' : Nat} (h : AgreesFor xs ys n)
    (h' : AgreesFor xs ys n') : n' = n :=
  Nat.le_antisymm (h.le h') (h'.le h)

theorem AgreesFor.cons {xs ys : List String} {n : Nat} (h : AgreesFor xs ys n) (x : String) :
    AgreesFor (x :: xs) (x :: ys) (n + 1) where
  left := Nat.succ_le_succ h.left
  right := Nat.succ_le_succ h.right
  take := congrArg (x :: ·) h.take
  stop := by
    simp only [List.length_cons, Nat.add_right_cancel_iff, List.getElem?_cons_succ]
    exact h.stop

theorem agreesFor_commonLength (xs ys : List String) : AgreesFor xs ys (commonLength xs ys) := by
  fun_induction commonLength xs ys with
  | case1 xs x ys ih => exact ih.cons x
  | case2 x xs y ys hne =>
    refine ⟨Nat.zero_le _, Nat.zero_le _, rfl, .inr (.inr ?_)⟩
    exact fun heq => hne (Option.some.inj heq)
  | case3 xs ys hnone =>
    refine ⟨Nat.zero_le _, Nat.zero_le _, rfl, ?_⟩
    cases xs with
    | nil => exact .inl rfl
    | cons x xs =>
      cases ys with
      | nil => exact .inr (.inl rfl)
      | cons y ys => exact absurd rfl (hnone x xs y ys rfl)

/-! ## Rules at their places -/

/-- The rule with its own key and fragments and the given count of shared ones. -/
def keyed (r : Rule) (shared : Nat) : Rule :=
  { r with
    working :=
      { r.working with
        roleKey := r.roleKey, fragments := fragmentsOf r.path, sharedFragments := shared } }

def sharedWith (before r : Rule) : Nat :=
  if before.roleKey = r.roleKey then commonLength (fragmentsOf before.path) (fragmentsOf r.path)
  else 0

/-- Of the rule before only what annotating has filled in is read. -/
theorem annotate_some_annotate (previous : Option Rule) (before r : Rule) :
    r.annotate (some (before.annotate previous)) = r.keyed (sharedWith before r) := rfl

theorem getElem?_annotateAfter_succ {previous : Option Rule} {i : Nat} {before : Rule}
    (hbefore : rules[i]? = some before) (hr : rules[i + 1]? = some r) :
    (annotateAfter previous rules)[i + 1]? = some (r.keyed (sharedWith before r)) := by
  induction rules generalizing previous i with
  | nil => cases hr
  | cons first rules ih =>
    rw [List.getElem?_cons_succ] at hr
    rw [annotateAfter, List.getElem?_cons_succ]
    cases i with
    | succ i => exact ih hbefore hr
    | zero =>
      obtain rfl := Option.some.inj hbefore
      cases rules with
      | nil => cases hr
      | cons second rules =>
        obtain rfl := Option.some.inj hr
        rw [annotateAfter, annotate_some_annotate]
        rfl

theorem getElem?_annotateAll_zero (hr : rules[0]? = some r) :
    (annotateAll rules)[0]? = some (r.keyed 0) := by
  cases rules with
  | nil => cases hr
  | cons first rules =>
    obtain rfl := Option.some.inj hr
    rfl

/-- A second pass finds every field as it would fill it. -/
theorem annotateAfter_annotateAfter (previous : Option Rule) (rules : List Rule) :
    annotateAfter previous (annotateAfter previous rules) = annotateAfter previous rules := by
  induction rules generalizing previous with
  | nil => rfl
  | cons r rules ih =>
    have hfirst : (r.annotate previous).annotate previous = r.annotate previous := rfl
    rw [annotateAfter, annotateAfter, hfirst, ih]

end RoutePolicy.Rule
