import RoutePolicy.Event
import RoutePolicy.Route.Basic
import RoutePolicy.Text.Pieces

/-!
# Parsing routes

Parsing fills a route's rule in place from its annotation lines: the router line decides whether the
route is accepted, and only then are the roles read. `parseAll` parses a list of routes and either
leaves out those that fail or stops at the first.
-/

namespace RoutePolicy

namespace Route

def fillRouterLine : EStateM Failure Route Unit := do
  let r ← get
  match RouterLine.find? r.routerLine.toList with
  | none => throw (.unparsableRouterLine r.routerLine)
  | some line =>
    modify fun r => { r with rule.path := String.ofList (Parameters.collapse line.path) }
    modify fun r => { r with rule.method := String.ofList (line.method.map Char.toUpper) }

/-- Fills the rule in place, one field after the other. The roles are read only once the router line
is accepted. -/
def fill : EStateM Failure Route Unit := do
  let r ← get
  if Text.trim r.routerLine.toList = [] then throw .emptyRouterLine
  fillRouterLine
  modify fun r => { r with rule.authorizedRoles := parseRoles r.authLine anyRole }
  modify fun r => { r with rule.forbiddenRoles := parseRoles r.forbiddenLine "" }

/-- The route with its rule filled, or the failure that stopped it. -/
def parse (r : Route) : Except Failure Route :=
  match fill.run r with
  | .ok _ accepted => .ok accepted
  | .error e _ => .error e

/-- What parsing reports beside its result: a blank router line is worth a warning. -/
def parseEvents (r : Route) : List Event :=
  match r.parse with
  | .error .emptyRouterLine => [.emptyRouterLine r.package r.file]
  | _ => []

end Route

structure Batch where
  /-- The routes that were accepted, in their order. -/
  parsed : List Route := []
  /-- The kinds of the failures that were passed over, in their order. -/
  failures : List Failure.Kind := []
  deriving DecidableEq, Repr

namespace Batch

/-- How many routes were passed over, by the kind of their failure. -/
def skipped (b : Batch) : List (Failure.Kind × Nat) := Failure.tally b.failures

def accept (r : Route) (b : Batch) : Batch := { b with parsed := r :: b.parsed }

def pass (e : Failure) (b : Batch) : Batch := { b with failures := e.kind :: b.failures }

end Batch

/-- Parses every route. In strict mode the first failure ends the work and is the result; otherwise
a route that fails is passed over with a warning. -/
def parseAll (strict : Bool) : List Route → Logged (Except Failure Batch)
  | [] => ⟨.ok {}, []⟩
  | r :: rs =>
    match r.parse with
    | .ok accepted => ((parseAll strict rs).map (·.map (·.accept accepted))).after r.parseEvents
    | .error e =>
      if strict then ⟨.error e, r.parseEvents⟩
      else
        ((parseAll strict rs).map (·.map (·.pass e))).after
          (r.parseEvents ++ [.skipped r.file e])

end RoutePolicy
