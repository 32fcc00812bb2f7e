import Mathlib.Logic.IsEmpty.Basic
import RoutePolicy.Proofs.Route.Parse
import RoutePolicy.Proofs.Route.Reading

/-!
# What parsing accepts

A router line is accepted exactly if it has a reading, and the leftmost one fills the rule. A route
that is refused is left as it was, and one that is accepted is filled from its three lines alone,
whatever its rule held before.
-/

namespace RoutePolicy.Route

open RouterLine (Reading)
open Text (Blank)

variable {r accepted : Route} {e : Failure}

theorem not_blank_of_reading (reading : Reading r.routerLine.toList) :
    ¬ Blank r.routerLine.toList := by
  intro hblank
  have hslash : '/' ∈ r.routerLine.toList := by
    rw [← reading.text]
    exact List.mem_append_right _ List.mem_cons_self
  exact absurd (hblank _ hslash) (by decide)

theorem readRouterLine_of_isLeftmost {reading : Reading r.routerLine.toList}
    (h : reading.IsLeftmost) : r.readRouterLine = .ok reading.line := by
  have hfind : RouterLine.find? r.routerLine.toList = some reading.line :=
    RouterLine.find?_eq_some_iff.2 ⟨reading, h, rfl⟩
  rw [readRouterLine, if_neg (Text.trim_eq_nil_iff.not.2 (not_blank_of_reading reading)), hfind]

theorem parse_of_isLeftmost {reading : Reading r.routerLine.toList} (h : reading.IsLeftmost) :
    r.parse = .ok { r with rule := r.ruleFrom reading.line } := by
  rw [parse_eq, readRouterLine_of_isLeftmost h]
  rfl

theorem readRouterLine_of_blank (h : Blank r.routerLine.toList) :
    r.readRouterLine = .error .emptyRouterLine := by
  rw [readRouterLine, if_pos (Text.trim_eq_nil_iff.2 h)]

theorem readRouterLine_of_isEmpty (hblank : ¬ Blank r.routerLine.toList)
    (h : IsEmpty (Reading r.routerLine.toList)) :
    r.readRouterLine = .error (.unparsableRouterLine r.routerLine) := by
  rw [readRouterLine, if_neg (Text.trim_eq_nil_iff.not.2 hblank), RouterLine.find?_eq_none_iff.2 h]

/-- The three ways parsing can end, one for each kind of router line. -/
theorem run_fill_cases (r : Route) :
    (∃ reading : Reading r.routerLine.toList, reading.IsLeftmost ∧
      fill.run r = .ok () { r with rule := r.ruleFrom reading.line }) ∨
    (Blank r.routerLine.toList ∧ IsEmpty (Reading r.routerLine.toList) ∧
      fill.run r = .error .emptyRouterLine r) ∨
    (¬ Blank r.routerLine.toList ∧ IsEmpty (Reading r.routerLine.toList) ∧
      fill.run r = .error (.unparsableRouterLine r.routerLine) r) := by
  rw [run_fill]
  -- a line with a reading is not blank, so only a line without one can fail in two ways
  rcases isEmpty_or_nonempty (Reading r.routerLine.toList) with hnone | ⟨⟨some⟩⟩
  · by_cases hblank : Blank r.routerLine.toList
    · refine .inr (.inl ⟨hblank, hnone, ?_⟩)
      rw [readRouterLine_of_blank hblank]
    · refine .inr (.inr ⟨hblank, hnone, ?_⟩)
      rw [readRouterLine_of_isEmpty hblank hnone]
  · obtain ⟨reading, hleftmost, -⟩ := RouterLine.existsUnique_isLeftmost some
    refine .inl ⟨reading, hleftmost, ?_⟩
    rw [readRouterLine_of_isLeftmost hleftmost]

theorem exists_run_fill_iff :
    (∃ accepted, fill.run r = .ok () accepted) ↔ Nonempty (Reading r.routerLine.toList) := by
  obtain ⟨reading, -, hrun⟩ | ⟨-, hnone, hrun⟩ | ⟨-, hnone, hrun⟩ := run_fill_cases r
  · exact iff_of_true ⟨_, hrun⟩ ⟨reading⟩
  all_goals
    refine iff_of_false ?_ (not_nonempty_iff.2 hnone)
    rintro ⟨accepted, haccepted⟩
    cases hrun.symm.trans haccepted

theorem run_fill_eq_error_iff {r' : Route} :
    fill.run r = .error e r' ↔
      r' = r ∧
        (Blank r.routerLine.toList ∧ e = .emptyRouterLine ∨
          ¬ Blank r.routerLine.toList ∧ IsEmpty (Reading r.routerLine.toList) ∧
            e = .unparsableRouterLine r.routerLine) := by
  obtain ⟨reading, -, hrun⟩ | ⟨hblank, -, hrun⟩ | ⟨hblank, hnone, hrun⟩ := run_fill_cases r
  · have hread : ¬ IsEmpty (Reading r.routerLine.toList) := fun hnone => hnone.false reading
    simp only [hrun, reduceCtorEq, not_blank_of_reading reading, hread, false_and, and_false, or_false]
  · simp only [hrun, EStateM.Result.error.injEq, hblank, not_true, true_and, false_and, or_false,
      eq_comm, and_comm]
  · simp only [hrun, EStateM.Result.error.injEq, hblank, hnone, not_false_iff, true_and, false_and,
      false_or, eq_comm, and_comm]

/-! ## What a filled route depends on -/

/-- The route with the fields that parsing fills taken from a rule. -/
def fillAs (r : Route) (filled : Rule) : Route :=
  { r with rule := { r.rule with
    path := filled.path
    method := filled.method
    authorizedRoles := filled.authorizedRoles
    forbiddenRoles := filled.forbiddenRoles } }

theorem exists_of_run_fill (h : fill.run r = .ok () accepted) :
    ∃ line, r.readRouterLine = .ok line ∧ accepted = { r with rule := r.ruleFrom line } := by
  rw [run_fill] at h
  cases hread : r.readRouterLine with
  | error e => simp only [hread, reduceCtorEq] at h
  | ok line =>
    simp only [hread, EStateM.Result.ok.injEq, true_and] at h
    exact ⟨line, rfl, h.symm⟩

variable {other : Route}

theorem run_fill_of_same_lines (h : fill.run r = .ok () accepted)
    (hrouter : other.routerLine = r.routerLine) (hauth : other.authLine = r.authLine)
    (hforbidden : other.forbiddenLine = r.forbiddenLine) :
    fill.run other = .ok () (other.fillAs accepted.rule) := by
  obtain ⟨line, hread, rfl⟩ := exists_of_run_fill h
  have hother : other.readRouterLine = .ok line := by
    rw [← hread, readRouterLine, readRouterLine, hrouter]
  rw [run_fill, hother]
  simp only [ruleFrom, fillAs, hauth, hforbidden]

/-- An accepted route keeps its lines, so parsing it again fills in what it holds. -/
theorem run_fill_again (h : fill.run r = .ok () accepted) :
    fill.run accepted = .ok () accepted := by
  obtain ⟨line, -, hfilled⟩ := exists_of_run_fill h
  have hrouter : accepted.routerLine = r.routerLine := by rw [hfilled]
  have hauth : accepted.authLine = r.authLine := by rw [hfilled]
  have hforbidden : accepted.forbiddenLine = r.forbiddenLine := by rw [hfilled]
  exact run_fill_of_same_lines h hrouter hauth hforbidden

/-- Parsing accepts a route exactly if its router line has a reading, and fills the rule from the
leftmost one. A refused route is unchanged, and its failure says whether the line was blank. What an
accepted route is filled with depends on its three lines only, so a second parse changes nothing. -/
theorem fill_reads_leftmost (r : Route) :
    ((∃ accepted, fill.run r = .ok () accepted) ↔ Nonempty (Reading r.routerLine.toList)) ∧
    (Nonempty (Reading r.routerLine.toList) →
      ∃! reading : Reading r.routerLine.toList, reading.IsLeftmost) ∧
    (∀ reading : Reading r.routerLine.toList, reading.IsLeftmost →
      fill.run r = .ok () { r with rule := { r.rule with
        path := String.ofList (Parameters.collapse reading.path)
        method := String.ofList (reading.method.map Char.toUpper)
        authorizedRoles := parseRoles r.authLine anyRole
        forbiddenRoles := parseRoles r.forbiddenLine "" } }) ∧
    (∀ e r', fill.run r = .error e r' ↔
      r' = r ∧
        (Blank r.routerLine.toList ∧ e = .emptyRouterLine ∨
          ¬ Blank r.routerLine.toList ∧ IsEmpty (Reading r.routerLine.toList) ∧
            e = .unparsableRouterLine r.routerLine)) ∧
    ∀ accepted, fill.run r = .ok () accepted →
      fill.run accepted = .ok () accepted ∧
        ∀ other : Route, other.routerLine = r.routerLine → other.authLine = r.authLine →
          other.forbiddenLine = r.forbiddenLine →
          fill.run other = .ok () (other.fillAs accepted.rule) := by
  refine ⟨exists_run_fill_iff, ?_, ?_, fun e r' => run_fill_eq_error_iff, ?_⟩
  · rintro ⟨reading⟩
    exact RouterLine.existsUnique_isLeftmost reading
  · intro reading hleftmost
    rw [run_fill, readRouterLine_of_isLeftmost hleftmost]
    rfl
  · intro accepted haccepted
    exact ⟨run_fill_again haccepted,
      fun other hrouter hauth hforbidden => run_fill_of_same_lines haccepted hrouter hauth hforbidden⟩

/-- The line can be read at both of its paths. The first fills the rule, its parameter collapsed. -/
theorem fill_reads_first_of_two :
    fill.run { routerLine := "/users/\x7bid\x7d \t[get] or /b [put]", authLine := "ops, admin" } =
      .ok () {
        routerLine := "/users/\x7bid\x7d \t[get] or /b [put]", authLine := "ops, admin"
        rule := { path := "/users/*", method := "GET", authorizedRoles := ["ops", "admin"] } } := by
  let route : Route :=
    { routerLine := "/users/\x7bid\x7d \t[get] or /b [put]", authLine := "ops, admin" }
  let reading : Reading route.routerLine.toList :=
    { before := [], tail := "users/\x7bid\x7d".toList, gap := " \t".toList
      method := "get".toList, after := " or /b [put]".toList
      text := by decide +kernel
      tail_chars := List.all_eq_true.1 (by decide +kernel)
      gap_ne_nil := by decide +kernel
      gap_chars := List.all_eq_true.1 (by decide +kernel)
      method_ne_nil := by decide +kernel
      method_chars := List.all_eq_true.1 (by decide +kernel) }
  have hleftmost : reading.IsLeftmost := fun other => Nat.zero_le other.before.length
  refine ((fill_reads_leftmost route).2.2.1 reading hleftmost).trans ?_
  rw [EStateM.Result.ok.injEq]
  decide +kernel

end RoutePolicy.Route
