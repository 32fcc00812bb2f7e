import RoutePolicy.Proofs.Route.Roles
import RoutePolicy.Proofs.Text.Read
import RoutePolicy.Route.Parse

/-!
# Accepted routes

A route is accepted if its router line can be read, and then both role lists of its rule come from
its role lines.
-/

namespace RoutePolicy

namespace Route

/-- What the router line says, or why it says nothing. -/
def readRouterLine (r : Route) : Except Failure RouterLine :=
  if Text.trim r.routerLine.toList = [] then .error .emptyRouterLine
  else
    match RouterLine.find? r.routerLine.toList with
    | some line => .ok line
    | none => .error (.unparsableRouterLine r.routerLine)

def ruleFrom (r : Route) (line : RouterLine) : Rule :=
  { r.rule with
    path := String.ofList (Parameters.collapse line.path)
    method := String.ofList (line.method.map Char.toUpper)
    authorizedRoles := parseRoles r.authLine anyRole
    forbiddenRoles := parseRoles r.forbiddenLine "" }

theorem run_fillRouterLine (r : Route) :
    fillRouterLine.run r = match RouterLine.find? r.routerLine.toList with
      | some line => .ok () { r with
          rule.path := String.ofList (Parameters.collapse line.path)
          rule.method := String.ofList (line.method.map Char.toUpper) }
      | none => .error (.unparsableRouterLine r.routerLine) r := by
  simp only [fillRouterLine, EStateM.run_bind, EStateM.run_get]
  cases RouterLine.find? r.routerLine.toList <;> rfl

/-- Both checks of the router line come before the first field is filled, so a failure leaves the
route as it was. -/
theorem run_fill (r : Route) :
    fill.run r = match r.readRouterLine with
      | .ok line => .ok () { r with rule := r.ruleFrom line }
      | .error e => .error e r := by
  simp only [fill, EStateM.run_bind, EStateM.run_get, readRouterLine]
  by_cases hblank : Text.trim r.routerLine.toList = []
  · simp only [if_pos hblank, EStateM.run_bind, EStateM.run_throw]
  · simp only [if_neg hblank, EStateM.run_bind, run_fillRouterLine]
    cases RouterLine.find? r.routerLine.toList <;> rfl

theorem parse_eq (r : Route) :
    r.parse = r.readRouterLine.map fun line => { r with rule := r.ruleFrom line } := by
  rw [parse, run_fill]
  cases r.readRouterLine <;> rfl

theorem parse_eq_ok_iff {r accepted : Route} :
    r.parse = .ok accepted ↔
      ∃ line, r.readRouterLine = .ok line ∧ accepted = { r with rule := r.ruleFrom line } := by
  rw [parse_eq]
  cases h : r.readRouterLine with
  | error e => simp only [Except.map, reduceCtorEq, false_and, exists_false]
  | ok line => simp only [Except.map, Except.ok.injEq, exists_eq_left', eq_comm]

/-- The roles of an accepted route are those of its two role lines. -/
theorem roles_of_parse {r accepted : Route} (h : r.parse = .ok accepted) :
    accepted.rule.authorizedRoles = parseRoles r.authLine anyRole ∧
      accepted.rule.forbiddenRoles = parseRoles r.forbiddenLine "" := by
  obtain ⟨line, -, rfl⟩ := parse_eq_ok_iff.1 h
  exact ⟨rfl, rfl⟩

end Route

/-- Routes that are all accepted are parsed without a failure, strictly or not. -/
theorem value_parseAll {ι : Type} {items : List ι} {route accepted : ι → Route}
    (h : ∀ i ∈ items, (route i).parse = .ok (accepted i)) (strict : Bool) :
    (parseAll strict (items.map route)).value = .ok { parsed := items.map accepted } := by
  induction items with
  | nil => rfl
  | cons i items ih =>
    have hi : (route i).parse = .ok (accepted i) := h i List.mem_cons_self
    have hitems : (parseAll strict (items.map route)).value =
        .ok { parsed := items.map accepted } :=
      ih fun j hj => h j (List.mem_cons_of_mem i hj)
    rw [List.map_cons, parseAll, hi]
    simp only [Logged.after, Logged.map, hitems]
    rfl

/-- Where parsing comes to its end, it has kept the routes that are accepted, in their order. -/
theorem parsed_of_parseAll {strict : Bool} {routes : List Route} {batch : Batch}
    (h : (parseAll strict routes).value = .ok batch) :
    batch.parsed = routes.filterMap fun r => r.parse.toOption := by
  induction routes generalizing batch with
  | nil =>
    rw [← Except.ok.inj h]
    rfl
  | cons r routes ih =>
    rw [parseAll] at h
    cases hparse : r.parse with
    | ok accepted =>
      simp only [hparse, Logged.after, Logged.map] at h
      cases hrest : (parseAll strict routes).value with
      | error e => simp only [hrest, Except.map, reduceCtorEq] at h
      | ok rest =>
        simp only [hrest, Except.map, Except.ok.injEq] at h
        rw [← h, List.filterMap_cons, hparse, Batch.accept, ih hrest]
        rfl
    | error e =>
      cases strict with
      | true => simp only [hparse, if_true, reduceCtorEq] at h
      | false =>
        simp only [hparse, Bool.false_eq_true, if_false, Logged.after, Logged.map] at h
        cases hrest : (parseAll false routes).value with
        | error e => simp only [hrest, Except.map, reduceCtorEq] at h
        | ok rest =>
          simp only [hrest, Except.map, Except.ok.injEq] at h
          rw [← h, List.filterMap_cons, hparse, Batch.pass, ih hrest]
          rfl

/-- The rule of a route that was accepted, put on any host. -/
def Rule.Accepted (r : Rule) : Prop :=
  ∃ route accepted : Route, route.parse = .ok accepted ∧
    ∃ host, r = { accepted.rule with host := host }

namespace Rule

variable {r : Rule}

theorem accepted_of_parse (route : Route) (h : route.parse.toOption.map Route.rule = some r) :
    r.Accepted := by
  obtain ⟨accepted, hparse, rfl⟩ := Option.map_eq_some_iff.1 h
  exact ⟨route, accepted, Text.eq_ok_of_toOption hparse, accepted.rule.host, rfl⟩

theorem Accepted.roles (h : r.Accepted) :
    ∃ authLine forbiddenLine,
      r.authorizedRoles = parseRoles authLine anyRole ∧
        r.forbiddenRoles = parseRoles forbiddenLine "" := by
  obtain ⟨route, accepted, hparse, host, rfl⟩ := h
  exact ⟨route.authLine, route.forbiddenLine, Route.roles_of_parse hparse⟩

theorem Accepted.listable_authorizedRoles (h : r.Accepted) : Listable r.authorizedRoles := by
  obtain ⟨authLine, _, hauthorized, _⟩ := h.roles
  rw [hauthorized]
  apply listable_parseRoles
  rw [Text.CommaFree]
  decide

theorem Accepted.listable_forbiddenRoles (h : r.Accepted) : Listable r.forbiddenRoles := by
  obtain ⟨_, forbiddenLine, _, hforbidden⟩ := h.roles
  rw [hforbidden]
  apply listable_parseRoles
  rw [Text.CommaFree]
  decide

theorem Accepted.withHost (h : r.Accepted) (defaultHost : String) :
    (r.withHost defaultHost).Accepted := by
  obtain ⟨route, accepted, hparse, host, rfl⟩ := h
  rw [Rule.withHost_eq]
  exact ⟨route, accepted, hparse, _, rfl⟩

end Rule

end RoutePolicy
