import RoutePolicy.Policy
import RoutePolicy.Route.Parse
import RoutePolicy.Settings
import RoutePolicy.Source.Tree

/-!
# Generating a policy

A run scans the tree for routes, parses them, merges their rules and stores the policy. Nothing is
written unless scanning and parsing succeed.
-/

namespace RoutePolicy

structure Report where
  /-- How many routes were found. -/
  scanned : Nat
  /-- How many of them were accepted. -/
  parsed : Nat
  /-- How many were passed over, by the kind of their failure. -/
  skipped : List (Failure.Kind × Nat)
  /-- The rules of the policy. -/
  rules : List Rule
  deriving DecidableEq, Repr

namespace Report

/-- Parses the routes that were found, and merges the rules of those that are accepted. -/
def ofRoutes (strict : Bool) (defaultHost : String) (routes : List Route) :
    Logged (Except Failure Report) :=
  let batch := parseAll strict routes
  match batch.value with
  | .error e => ⟨.error e, batch.events⟩
  | .ok b =>
    let merged := Policy.merge defaultHost (b.parsed.map (·.rule))
    ⟨.ok ⟨routes.length, b.parsed.length, b.skipped, merged.value⟩, batch.events ++ merged.events⟩

def completion (r : Report) : Event := .finished r.scanned r.parsed r.skipped r.rules.length

end Report

/-- Scans, parses and merges; the tree is only read. -/
def examine (settings : Settings) (t : FileTree) : Logged (Except Failure Report) :=
  let found := Source.scanTree t settings.extensions settings.sourceDir
  match found.value with
  | .error e => ⟨.error e, found.events⟩
  | .ok routes => (Report.ofRoutes settings.strict settings.defaultHost routes).after found.events

/-- Scans the tree and stores the policy in it. -/
def generate (settings : Settings) (t : FileTree) : Policy.Stored Report :=
  let examined := examine settings t
  match examined.value with
  | .error e => ⟨t, ⟨.error e, examined.events⟩⟩
  | .ok report =>
    let stored := Policy.store t settings.output report.rules
    ⟨stored.tree, (stored.result.map (·.map fun _ => report)).after examined.events⟩

end RoutePolicy
