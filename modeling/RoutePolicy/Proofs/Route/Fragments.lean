import RoutePolicy.Proofs.Rule.Fragments
import RoutePolicy.Proofs.Rule.RoleKey
import RoutePolicy.Route.Fragments

/-!
# Routes after annotating

What annotating makes of the route at each place of a list: it depends on that route and on the one
before it, and on no value that the working fields held.
-/

namespace RoutePolicy.Route

open Rule (AgreesFor fragmentsOf)

variable {routes : List Route} {route : Route} {i : Nat}

theorem getElem?_annotateAll {rule : Rule} (hroute : routes[i]? = some route)
    (hrule : (Rule.annotateAll (routes.map (·.rule)))[i]? = some rule) :
    (annotateAll routes)[i]? = some { route with rule } := by
  rw [annotateAll, withRules, List.getElem?_zipWith, hroute, hrule]

theorem map_rule_annotateAll (routes : List Route) :
    (annotateAll routes).map (·.rule) = Rule.annotateAll (routes.map (·.rule)) := by
  have hlength : (Rule.annotateAll (routes.map (·.rule))).length = routes.length := by
    rw [Rule.annotateAll, Rule.length_annotateAfter, List.length_map]
  rw [annotateAll, withRules, List.map_zipWith]
  apply List.ext_getElem?
  intro i
  rw [List.getElem?_zipWith]
  by_cases hi : i < routes.length
  · rw [List.getElem?_eq_getElem hi, List.getElem?_eq_getElem (hlength ▸ hi)]
  · rw [List.getElem?_eq_none (Nat.le_of_not_lt hi),
      List.getElem?_eq_none (hlength ▸ Nat.le_of_not_lt hi)]

theorem length_annotateAll (routes : List Route) : (annotateAll routes).length = routes.length := by
  have hrules := congrArg List.length (map_rule_annotateAll routes)
  rwa [List.length_map, Rule.annotateAll, Rule.length_annotateAfter, List.length_map] at hrules

theorem annotateAll_annotateAll (routes : List Route) :
    annotateAll (annotateAll routes) = annotateAll routes := by
  have hrules : Rule.annotateAll ((annotateAll routes).map (·.rule)) =
      Rule.annotateAll (routes.map (·.rule)) := by
    rw [map_rule_annotateAll]
    exact Rule.annotateAfter_annotateAfter none _
  rw [annotateAll, hrules]
  apply List.ext_getElem?
  intro i
  rw [annotateAll, withRules, withRules, List.getElem?_zipWith, List.getElem?_zipWith]
  cases routes[i]? with
  | none => rfl
  | some route => cases (Rule.annotateAll (routes.map (·.rule)))[i]? <;> rfl

/-- Annotating keeps the routes and their order, and fills in the key, the fragments and the count of
shared fragments of each rule: none for the first route and behind a route with another key, and
otherwise the one number for which the fragments agree with those of the route before. Annotating
again changes nothing. -/
theorem annotateAll_at_each_place (routes : List Route) :
    (annotateAll routes).length = routes.length ∧
      (∀ i route, routes[i]? = some route → ∃ shared,
        (annotateAll routes)[i]? = some { route with rule := route.rule.keyed shared } ∧
          (i = 0 → shared = 0) ∧
          ∀ j before, i = j + 1 → routes[j]? = some before →
            (before.rule.roleKey ≠ route.rule.roleKey → shared = 0) ∧
              (before.rule.roleKey = route.rule.roleKey →
                AgreesFor (fragmentsOf before.rule.path) (fragmentsOf route.rule.path) shared ∧
                  ∀ n, AgreesFor (fragmentsOf before.rule.path) (fragmentsOf route.rule.path) n →
                    n = shared)) ∧
      annotateAll (annotateAll routes) = annotateAll routes := by
  refine ⟨length_annotateAll routes, ?_, annotateAll_annotateAll routes⟩
  intro i route hroute
  have hrule : (routes.map (·.rule))[i]? = some route.rule := by
    rw [List.getElem?_map, hroute, Option.map_some]
  cases i with
  | zero =>
    refine ⟨0, getElem?_annotateAll hroute (Rule.getElem?_annotateAll_zero hrule), fun _ => rfl, ?_⟩
    intro j before hj
    omega
  | succ i =>
    obtain ⟨before, hbefore⟩ : ∃ before, routes[i]? = some before := by
      obtain ⟨hi, -⟩ := List.getElem?_eq_some_iff.1 hroute
      exact ⟨_, List.getElem?_eq_getElem (Nat.lt_of_succ_lt hi)⟩
    have hbeforeRule : (routes.map (·.rule))[i]? = some before.rule := by
      rw [List.getElem?_map, hbefore, Option.map_some]
    refine ⟨Rule.sharedWith before.rule route.rule,
      getElem?_annotateAll hroute (Rule.getElem?_annotateAfter_succ hbeforeRule hrule), ?_, ?_⟩
    · intro hzero
      omega
    intro j other hj hother
    obtain rfl : i = j := by omega
    obtain rfl := Option.some.inj (hbefore.symm.trans hother)
    constructor
    · exact fun hkeys => if_neg hkeys
    · intro hkeys
      have hagrees := Rule.agreesFor_commonLength (fragmentsOf before.rule.path)
        (fragmentsOf route.rule.path)
      rw [Rule.sharedWith, if_pos hkeys]
      exact ⟨hagrees, fun n hn => hagrees.unique hn⟩

/-- The second of two routes for the same people shares one fragment with the first, whatever was in
its working fields. -/
theorem annotateAll_at_second_place :
    let first : Route := { rule := { path := "/a/b", authorizedRoles := ["x", "y"] } }
    let second : Route :=
      { rule := { path := "//a/c", authorizedRoles := ["y", "x", "y"]
                  working := { roleKey := "old", fragments := ["z"], sharedFragments := 7 } } }
    [first, second][1]? = some second ∧
      (annotateAll [first, second])[1]? = some { second with rule := second.rule.keyed 1 } := by
  intro first second
  have hsecond : [first, second][1]? = some second := rfl
  obtain ⟨shared, hplace, -, hbehind⟩ := (annotateAll_at_each_place [first, second]).2.1 1 second hsecond
  have hroles : Rule.SameRoles first.rule.authorizedRoles second.rule.authorizedRoles := by
    intro role
    simp only [first, second, List.mem_cons, List.not_mem_nil, or_false]
    grind
  have hkeys : first.rule.roleKey = second.rule.roleKey :=
    Rule.roleKeyOf_congr hroles fun _ => Iff.rfl
  have hone : AgreesFor (fragmentsOf first.rule.path) (fragmentsOf second.rule.path) 1 :=
    ⟨by decide +kernel, by decide +kernel, by decide +kernel, .inr (.inr (by decide +kernel))⟩
  have hshared : 1 = shared := ((hbehind 0 first rfl rfl).2 hkeys).2 1 hone
  rw [← hshared] at hplace
  exact ⟨hsecond, hplace⟩

end RoutePolicy.Route
