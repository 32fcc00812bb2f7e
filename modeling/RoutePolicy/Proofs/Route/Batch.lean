import Mathlib
import RoutePolicy.Proofs.Route.Parse

/-!
# Parsing many routes

Both modes go through the routes in their order and see the same outcome for each of them
(`Route.failure?`). Without strictness every route that fails is counted and reported, so the routes
that were kept and the counts add up to all routes (`parseAll_lenient`); with it the first failure
is the result (`parseAll_strict_of_first`).
-/

namespace RoutePolicy

/-- What is shown of an event: its level, its message and its named values. -/
def Event.shown (e : Event) : Level × String × List (String × Event.Value) :=
  (e.level, e.message, e.fields)

namespace Route

def failure? (r : Route) : Option Failure :=
  match r.parse with
  | .ok _ => none
  | .error e => some e

/-- What is shown of a failure at once, where the router line is blank. -/
def blankWarnings (r : Route) (e : Failure) : List (Level × String × List (String × Event.Value)) :=
  if e.kind = .emptyRouterLine then
    [(.warn, "empty permission raw router line",
      [("pkg", .text r.package), ("filepath", .text r.file)])]
  else []

def skipWarning (r : Route) (e : Failure) : Level × String × List (String × Event.Value) :=
  (.warn, "skipping permission",
    [("filepath", .text r.file), ("kind", .label e.kind.label), ("error", .text e.message)])

def warnings (r : Route) : List (Level × String × List (String × Event.Value)) :=
  match r.failure? with
  | none => []
  | some e => r.blankWarnings e ++ [r.skipWarning e]

variable {r : Route} {e : Failure}

theorem failure?_eq_some_iff : r.failure? = some e ↔ r.parse = .error e := by
  rw [failure?]
  cases r.parse <;> simp

theorem failure?_eq_none_iff : r.failure? = none ↔ ∃ accepted, r.parse = .ok accepted := by
  rw [failure?]
  cases r.parse <;> simp

theorem shown_parseEvents (h : r.parse = .error e) :
    r.parseEvents.map Event.shown = r.blankWarnings e := by
  rw [parseEvents, h, blankWarnings]
  cases e <;> rfl

end Route

/-! ## Counting failures -/

namespace Failure

variable {kinds : List Kind}

theorem mem_tally {kind : Kind} {n : Nat} :
    (kind, n) ∈ tally kinds ↔ n ≠ 0 ∧ n = kinds.count kind := by
  simp only [tally, List.mem_filter, List.mem_map, Prod.mk.injEq, decide_eq_true_eq]
  constructor
  · rintro ⟨⟨k, -, rfl, rfl⟩, hn⟩
    exact ⟨hn, rfl⟩
  · rintro ⟨hn, rfl⟩
    exact ⟨⟨kind, kind.mem_all, rfl, rfl⟩, hn⟩

/-- Every kind is counted once. -/
theorem nodup_tally (kinds : List Kind) : ((tally kinds).map Prod.fst).Nodup := by
  have hall : (Kind.all.map fun k => (k, kinds.count k)).map Prod.fst = Kind.all := by
    rw [List.map_map]
    exact List.map_id _
  have hsublist : ((tally kinds).map Prod.fst).Sublist Kind.all := by
    rw [← hall]
    exact List.filter_sublist.map Prod.fst
  exact hsublist.nodup (by decide)

/-- What is left out of a tally counts for nothing. -/
theorem sum_counts_filter (counts : List (Kind × Nat)) :
    ((counts.filter fun entry => decide (entry.2 ≠ 0)).map Prod.snd).sum =
      (counts.map Prod.snd).sum := by
  induction counts with
  | nil => rfl
  | cons entry counts ih =>
    rw [List.filter_cons, List.map_cons, List.sum_cons, ← ih]
    split
    · rw [List.map_cons, List.sum_cons]
    · next h =>
      have hzero : entry.2 = 0 := by simpa using h
      rw [hzero, Nat.zero_add]

theorem sum_tally (kinds : List Kind) : ((tally kinds).map Prod.snd).sum = kinds.length := by
  rw [tally, sum_counts_filter, List.map_map]
  induction kinds with
  | nil => rfl
  | cons kind kinds ih =>
    rw [List.length_cons, ← ih]
    cases kind <;> simp [Kind.all] <;> omega

theorem tally_eq_nil_iff : tally kinds = [] ↔ kinds = [] := by
  constructor
  · intro h
    have hsum := sum_tally kinds
    rw [h] at hsum
    exact List.length_eq_zero_iff.1 hsum.symm
  · rintro rfl
    rfl

end Failure

/-! ## The two modes -/

variable {r : Route} {e : Failure}

theorem parseAll_cons_of_ok {accepted : Route} (h : r.parse = .ok accepted) (strict : Bool)
    (routes : List Route) :
    parseAll strict (r :: routes) =
      (parseAll strict routes).map (·.map (·.accept accepted)) := by
  rw [parseAll, h]
  simp only [Logged.after, Route.parseEvents, h, List.nil_append]

/-- Without strictness every route is parsed: those that are accepted are kept, and the others are
counted and reported. -/
theorem parseAll_lenient (routes : List Route) :
    (parseAll false routes).value = .ok
        { parsed := routes.filterMap fun r => r.parse.toOption
          failures := routes.filterMap fun r => r.failure?.map Failure.kind } ∧
      (parseAll false routes).events.map Event.shown = routes.flatMap Route.warnings := by
  induction routes with
  | nil => exact ⟨rfl, rfl⟩
  | cons r routes ih =>
    obtain ⟨hvalue, hevents⟩ := ih
    cases h : r.parse with
    | ok accepted =>
      have hnone : r.failure? = none := Route.failure?_eq_none_iff.2 ⟨accepted, h⟩
      rw [parseAll_cons_of_ok h, List.flatMap_cons, ← hevents]
      simp only [Logged.map, hvalue, Route.warnings, hnone, List.filterMap_cons, h]
      exact ⟨rfl, rfl⟩
    | error e =>
      have hsome : r.failure? = some e := Route.failure?_eq_some_iff.2 h
      rw [parseAll, h, List.flatMap_cons, ← hevents]
      simp only [Bool.false_eq_true, if_false, Logged.after, Logged.map, hvalue, Route.warnings,
        hsome, List.filterMap_cons, h, List.map_append, Route.shown_parseEvents h]
      exact ⟨rfl, rfl⟩

/-- With strictness nothing is reported of routes that are all accepted. -/
theorem parseAll_strict_of_accepted {routes : List Route} (h : ∀ r ∈ routes, r.failure? = none) :
    (parseAll true routes).value =
        .ok { parsed := routes.filterMap fun r => r.parse.toOption, failures := [] } ∧
      (parseAll true routes).events = [] := by
  induction routes with
  | nil => exact ⟨rfl, rfl⟩
  | cons r routes ih =>
    obtain ⟨hr, hroutes⟩ := List.forall_mem_cons.1 h
    obtain ⟨hvalue, hevents⟩ := ih hroutes
    obtain ⟨accepted, hparse⟩ := Route.failure?_eq_none_iff.1 hr
    rw [parseAll_cons_of_ok hparse]
    simp only [Logged.map, hvalue, hevents, List.filterMap_cons, hparse, and_true]
    rfl

/-- The first failure ends a strict run, whatever comes behind it. -/
theorem parseAll_strict_of_first {before : List Route} (h : ∀ r ∈ before, r.failure? = none)
    (hrejected : r.parse = .error e) (after : List Route) :
    (parseAll true (before ++ r :: after)).value = .error e ∧
      (parseAll true (before ++ r :: after)).events = r.parseEvents := by
  induction before with
  | nil =>
    rw [List.nil_append, parseAll, hrejected]
    exact ⟨rfl, rfl⟩
  | cons first before ih =>
    obtain ⟨hfirst, hbefore⟩ := List.forall_mem_cons.1 h
    obtain ⟨hvalue, hevents⟩ := ih hbefore
    obtain ⟨accepted, hparse⟩ := Route.failure?_eq_none_iff.1 hfirst
    rw [List.cons_append, parseAll_cons_of_ok hparse]
    simp only [Logged.map, hvalue, hevents, and_true]
    rfl

/-- All routes are accepted, or one of them is the first to fail. -/
theorem accepted_or_first (routes : List Route) :
    (∀ r ∈ routes, r.failure? = none) ∨
      ∃ before rejected after e, routes = before ++ rejected :: after ∧
        (∀ r ∈ before, r.failure? = none) ∧ rejected.failure? = some e := by
  cases h : routes.findSome? Route.failure? with
  | none => exact .inl (List.findSome?_eq_none_iff.1 h)
  | some e =>
    obtain ⟨before, rejected, after, hroutes, hrejected, hbefore⟩ :=
      List.findSome?_eq_some_iff.1 h
    exact .inr ⟨before, rejected, after, e, hroutes, hbefore, hrejected⟩

theorem failures_eq_nil_iff {routes : List Route} :
    (routes.filterMap fun r => r.failure?.map Failure.kind) = [] ↔
      ∀ r ∈ routes, r.failure? = none := by
  simp only [List.filterMap_eq_nil_iff, Option.map_eq_none_iff]

/-- Every route is either kept or counted. -/
theorem length_parsed_add_length_failures (routes : List Route) :
    (routes.filterMap fun r => r.parse.toOption).length +
      (routes.filterMap fun r => r.failure?.map Failure.kind).length = routes.length := by
  induction routes with
  | nil => rfl
  | cons r routes ih =>
    rw [List.length_cons, ← ih, List.filterMap_cons, List.filterMap_cons, Route.failure?]
    cases r.parse <;> simp [Except.toOption] <;> omega

/-- Parsing many routes accounts for each of them. Without strictness it comes to its end: it keeps
the routes that are accepted, counts the others by the kind of their failure, and reports each of
these. With strictness it comes to its end exactly if nothing would be counted, with the same routes
and no report; otherwise the first failure is its result, and it reports no more than a blank line
there. -/
theorem parseAll_accounts (routes : List Route) :
    ∃ lenient : Batch, (parseAll false routes).value = .ok lenient ∧
      lenient.parsed = (routes.filterMap fun r => r.parse.toOption) ∧
      (∀ kind n, (kind, n) ∈ lenient.skipped ↔
        n ≠ 0 ∧ n = routes.countP fun r => decide (r.failure?.map Failure.kind = some kind)) ∧
      (lenient.skipped.map Prod.fst).Nodup ∧
      lenient.parsed.length + (lenient.skipped.map Prod.snd).sum = routes.length ∧
      (parseAll false routes).events.map Event.shown = routes.flatMap Route.warnings ∧
      ((∃ strict, (parseAll true routes).value = .ok strict) ↔ lenient.skipped = []) ∧
      ((∃ strict, (parseAll true routes).value = .ok strict ∧ strict.parsed = lenient.parsed ∧
          strict.skipped = [] ∧ (parseAll true routes).events = []) ∨
        ∃ before rejected after e, routes = before ++ rejected :: after ∧
          (∀ r ∈ before, r.failure? = none) ∧ rejected.failure? = some e ∧
          (parseAll true routes).value = .error e ∧
          (parseAll true routes).events.map Event.shown = rejected.blankWarnings e) := by
  obtain ⟨hvalue, hevents⟩ := parseAll_lenient routes
  refine ⟨_, hvalue, rfl, fun kind n => ?_, Failure.nodup_tally _, ?_, hevents, ?_⟩
  · rw [Batch.skipped, Failure.mem_tally, List.count_filterMap]
    simp only [beq_eq_decide]
  · rw [Batch.skipped, Failure.sum_tally]
    exact length_parsed_add_length_failures routes
  · rw [Batch.skipped, Failure.tally_eq_nil_iff, failures_eq_nil_iff]
    rcases accepted_or_first routes with hall | ⟨before, rejected, after, e, rfl, hbefore, hfailure⟩
    · obtain ⟨hstrict, hquiet⟩ := parseAll_strict_of_accepted hall
      exact ⟨iff_of_true ⟨_, hstrict⟩ hall, .inl ⟨_, hstrict, rfl, rfl, hquiet⟩⟩
    · have hrejected := Route.failure?_eq_some_iff.1 hfailure
      obtain ⟨hstrict, hreported⟩ := parseAll_strict_of_first hbefore hrejected after
      refine ⟨iff_of_false ?_ ?_,
        .inr ⟨before, rejected, after, e, rfl, hbefore, hfailure, hstrict, ?_⟩⟩
      · rintro ⟨strict, hok⟩
        cases hstrict.symm.trans hok
      · intro hall
        have hnone := hall rejected (List.mem_append_right before List.mem_cons_self)
        cases hfailure.symm.trans hnone
      · rw [hreported]
        exact Route.shown_parseEvents hrejected

example :
    let routes : List Route :=
      [{ routerLine := "/a [get]" }, { routerLine := " ", package := "p", file := "p/a.go" },
        { routerLine := "nothing", file := "b.go" }, { routerLine := "" }]
    (parseAll false routes).value.toOption.map Batch.skipped =
        some [(.emptyRouterLine, 2), (.unparsableRouterLine, 1)] ∧
      (parseAll true routes).value = .error .emptyRouterLine ∧
      (parseAll true routes).events = [.emptyRouterLine "p" "p/a.go"] := by
  decide +kernel

end RoutePolicy
