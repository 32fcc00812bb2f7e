import RoutePolicy.Route.Basic
import RoutePolicy.Rule.Basic
import RoutePolicy.Text.Pieces

/-!
# Role keys and path fragments

Rules in scan order are annotated with their role key, the fragments of their path, and how many
fragments they share with the rule before them. The annotation looks only at the roles and the path,
never at the values that the working fields held before.
-/

namespace RoutePolicy.Rule

/-! ## Role keys

The role key is a text made from a rule's two role lists. It does not depend on the order of the
roles or on repetitions, so that rules for the same people get the same key. -/

/-- The roles without repetitions, in ascending order of their code points, joined with commas. -/
def roleSignature (roles : List String) : String :=
  Text.joinCommas ((distinct roles).mergeSort (fun a b => decide (a ≤ b)))

/-- The key of two role lists: `+`, the signature of the authorized roles, `-`, the signature of the
forbidden roles. -/
def roleKeyOf (authorized forbidden : List String) : String :=
  "+" ++ roleSignature authorized ++ "-" ++ roleSignature forbidden

def roleKey (r : Rule) : String := roleKeyOf r.authorizedRoles r.forbiddenRoles

/-! ## Fragments -/

def fragmentsOf (path : String) : List String :=
  ((path.toList.splitOn '/').filter (fun segment => decide (segment ≠ []))).map String.ofList

def commonLength : List String → List String → Nat
  | x :: xs, y :: ys => if x = y then commonLength xs ys + 1 else 0
  | _, _ => 0

/-- Fills the key, the fragments and the count of shared fragments, given the annotated rule before
this one. -/
def annotate (previous : Option Rule) (r : Rule) : Rule :=
  let key := r.roleKey
  let fragments := fragmentsOf r.path
  let shared :=
    match previous with
    | none => 0
    | some p => if p.working.roleKey = key then commonLength p.working.fragments fragments else 0
  { r with
    working :=
      { r.working with roleKey := key, fragments := fragments, sharedFragments := shared } }

def annotateAfter (previous : Option Rule) : List Rule → List Rule
  | [] => []
  | r :: rs => r.annotate previous :: annotateAfter (some (r.annotate previous)) rs

def annotateAll (rules : List Rule) : List Rule := annotateAfter none rules

theorem length_annotateAfter (previous : Option Rule) (rules : List Rule) :
    (annotateAfter previous rules).length = rules.length := by
  induction rules generalizing previous with
  | nil => rfl
  | cons r rs ih => simp [annotateAfter, ih]

end RoutePolicy.Rule

namespace RoutePolicy.Route

/-! ## Annotated routes

The rules of routes are annotated in the order in which the routes were found; nothing else of a
route is changed. -/

/-- The routes with other rules, one for each route. -/
def withRules (routes : List Route) (rules : List Rule) : List Route :=
  routes.zipWith (fun route rule => { route with rule }) rules

def annotateAll (routes : List Route) : List Route :=
  withRules routes (Rule.annotateAll (routes.map (·.rule)))

end RoutePolicy.Route
