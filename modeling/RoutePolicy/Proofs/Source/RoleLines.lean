import RoutePolicy.Proofs.Route.Parse
import RoutePolicy.Proofs.Source.Runs
import RoutePolicy.Proofs.Text.CommaList

/-!
# The role lines of a run

The role lines of a run are joined with commas when the run is scanned, and cut at commas when its
routes are parsed. Between the two no role is lost and no two roles are glued together: the roles of
a route are those that the lines list, one line after the other and with their repetitions. So it is
a matter of all lines of the run, and of no single one, whether the default takes their place.
-/

namespace RoutePolicy

open Text (CommaFree joinCommas)

variable {lines roles : List String} {default : String}

/-- The roles that some lines list when each line is read by itself. -/
def rolesOfLines (lines : List String) : List String :=
  lines.flatMap fun line => parseRoles line ""

theorem listedRoles_joinCommas (lines : List String) :
    listedRoles (joinCommas lines) = rolesOfLines lines := by
  have hlisted : listedRoles (joinCommas lines) = lines.flatMap listedRoles :=
    Text.commaEntries_joinCommas rfl lines
  rw [hlisted, rolesOfLines]
  exact List.flatMap_congr fun line _ => (parseRoles_empty line).symm

theorem rolesOfLines_eq_nil_iff :
    rolesOfLines lines = [] ↔ ∀ line ∈ lines, ¬ HasEntry line.toList := by
  simp only [rolesOfLines, List.flatMap_eq_nil_iff, parseRoles_empty, listedRoles_eq_nil_iff]

/-- The default is asked for once, when all lines have been read. -/
theorem parseRoles_joinCommas (lines : List String) (default : String) :
    parseRoles (joinCommas lines) default =
      if rolesOfLines lines ≠ [] ∨ default = "" then rolesOfLines lines else [default] := by
  rw [← listedRoles_joinCommas]
  by_cases hnil : listedRoles (joinCommas lines) = []
  · by_cases hdefault : default = ""
    · rw [if_pos (Or.inr hdefault), hdefault, parseRoles_empty]
    · rw [if_neg (not_or.2 ⟨not_not.2 hnil, hdefault⟩), parseRoles_of_eq_nil hnil hdefault]
  · rw [if_pos (Or.inl hnil), parseRoles_of_ne_nil hnil]

/-- Roles that a line can list are read back from the line that they are joined to. -/
theorem listedRoles_joinCommas_roles (h : Rule.Listable roles)
    (htight : ∀ role ∈ roles, Text.Tight role.toList) : listedRoles (joinCommas roles) = roles :=
  (Text.commaEntries_joinCommas_eq_self_iff rfl h).2 fun role hrole => (htight role hrole).trim_eq

theorem tight_of_mem_parseRoles {line role : String} (hdefault : Text.Tight default.toList)
    (h : role ∈ parseRoles line default) : Text.Tight role.toList := by
  unfold parseRoles at h
  split at h
  · split at h
    · exact absurd h List.not_mem_nil
    · rwa [List.mem_singleton.1 h]
  · exact tight_of_mem_listedRoles h

/-- What was read is a role line in its tidy form, with the default or without it. -/
theorem parseRoles_joinCommas_parseRoles (line : String) (hfree : CommaFree default)
    (htight : Text.Tight default.toList) :
    parseRoles (joinCommas (parseRoles line default)) default = parseRoles line default := by
  have hback : listedRoles (joinCommas (parseRoles line default)) = parseRoles line default :=
    listedRoles_joinCommas_roles (listable_parseRoles hfree)
      fun _ => tight_of_mem_parseRoles htight
  by_cases hnil : parseRoles line default = []
  · have hdefault : default = "" := by
      by_contra hne
      by_cases hlisted : listedRoles line = []
      · exact absurd ((parseRoles_of_eq_nil hlisted hne).symm.trans hnil) (List.cons_ne_nil _ _)
      · exact hlisted ((parseRoles_of_ne_nil hlisted).symm.trans hnil)
    subst hdefault
    rw [parseRoles_empty (joinCommas _), hback]
  · have hne : listedRoles (joinCommas (parseRoles line default)) ≠ [] := by rwa [hback]
    rw [parseRoles_of_ne_nil hne, hback]

namespace Source

def Tag.valueTexts (tag : Tag) (run : List (List Char)) : List String :=
  (tag.values run).map String.ofList

theorem joinCommas_valueTexts (tag : Tag) (run : List (List Char)) :
    joinCommas (tag.valueTexts run) = String.ofList ([','].intercalate (tag.values run)) := by
  have hback : (tag.valueTexts run).map String.toList = tag.values run := by
    simp [Tag.valueTexts, Function.comp_def]
  rw [← String.toList_inj, Text.toList_joinCommas, hback, String.toList_ofList]

/-- The role lines of a route are those of its run, joined. -/
theorem roleLines_of_mem_runRoutes {package file : String} {run : List (List Char)} {route : Route}
    (h : route ∈ runRoutes package file run) :
    route.authLine = joinCommas (Tag.authRoles.valueTexts run) ∧
      route.forbiddenLine = joinCommas (Tag.forbiddenRoles.valueTexts run) := by
  obtain ⟨value, -, rfl⟩ := List.mem_map.1 h
  exact ⟨(joinCommas_valueTexts _ _).symm, (joinCommas_valueTexts _ _).symm⟩

/-- Role lines that are joined list what they list one by one, and the default is taken only if all
of them are blank. Every role read is trimmed, not empty and without a comma, hence reading the
roles again changes nothing. So an accepted route has exactly the roles of the role lines of its
run. -/
theorem roles_of_joined_lines :
    (∀ (lines : List String) (default : String), default = anyRole ∨ default = "" →
      parseRoles (joinCommas lines) default =
          (if rolesOfLines lines ≠ [] ∨ default = "" then rolesOfLines lines else [anyRole]) ∧
        (rolesOfLines lines = [] ↔ ∀ line ∈ lines, ¬ HasEntry line.toList) ∧
        (∀ role ∈ parseRoles (joinCommas lines) default,
          role ≠ "" ∧ Text.trim role.toList = role.toList ∧ CommaFree role) ∧
        parseRoles (joinCommas (parseRoles (joinCommas lines) default)) default =
          parseRoles (joinCommas lines) default) ∧
    ∀ (packageHint file text : String), ∀ route ∈ scan packageHint file text,
      ∃ run ∈ runs (Text.lines text.toList),
        route ∈ runRoutes (packageOf packageHint (Text.lines text.toList)) file run ∧
          ∀ accepted, route.parse = .ok accepted →
            accepted.rule.authorizedRoles =
                (if rolesOfLines (Tag.authRoles.valueTexts run) ≠ [] then
                  rolesOfLines (Tag.authRoles.valueTexts run) else [anyRole]) ∧
              accepted.rule.forbiddenRoles = rolesOfLines (Tag.forbiddenRoles.valueTexts run) := by
  constructor
  · intro lines default hdefault
    have hfree : CommaFree default := by
      rcases hdefault with rfl | rfl <;> unfold CommaFree <;> decide
    have htight : Text.Tight default.toList := by
      rcases hdefault with rfl | rfl
      · exact Text.Tight.of_forall (List.forall_mem_singleton.2 rfl)
      · exact Text.Tight.of_forall fun c hc => absurd hc List.not_mem_nil
    refine ⟨?_, rolesOfLines_eq_nil_iff, ?_, parseRoles_joinCommas_parseRoles _ hfree htight⟩
    · rw [parseRoles_joinCommas]
      rcases hdefault with rfl | rfl
      · rfl
      · rw [if_pos (Or.inr rfl), if_pos (Or.inr rfl)]
    · intro role hrole
      obtain ⟨hne, hcomma⟩ := listable_parseRoles hfree role hrole
      exact ⟨hne, (tight_of_mem_parseRoles htight hrole).trim_eq, hcomma⟩
  · intro packageHint file text route hroute
    rw [scan_eq_flatMap_runs] at hroute
    obtain ⟨run, hrun, hmem⟩ := List.mem_flatMap.1 hroute
    refine ⟨run, hrun, hmem, fun accepted hparse => ?_⟩
    obtain ⟨hauthorized, hforbidden⟩ := Route.roles_of_parse hparse
    obtain ⟨hauth, hforbid⟩ := roleLines_of_mem_runRoutes hmem
    rw [hauthorized, hforbidden, hauth, hforbid, parseRoles_joinCommas, parseRoles_joinCommas,
      if_pos (Or.inr rfl)]
    refine ⟨?_, rfl⟩
    have hany : ¬ anyRole = "" := by decide
    simp only [hany, or_false]

/-- Blank entries and blank lines stand among the roles, and one role is listed twice. -/
theorem roles_of_lines_with_blanks :
    let lines := ["admin,,\u2003", ",", "ops ,admin"]
    let text :=
      "// @AuthRoles a,\n// @Router /x [get]\n// @ForbiddenRoles ,\n// @AuthRoles ,b , a\n"
    let route : Route :=
      { routerLine := "/x [get]", authLine := "a,,,b , a", forbiddenLine := ",", package := "p"
        file := "a.go" }
    let accepted : Route :=
      { route with rule := { path := "/x", method := "GET", authorizedRoles := ["a", "b", "a"] } }
    (parseRoles (joinCommas lines) anyRole = ["admin", "ops", "admin"] ∧
        parseRoles (joinCommas ["admin", "ops", "admin"]) anyRole = ["admin", "ops", "admin"] ∧
        parseRoles (joinCommas ["\u2003", ","]) anyRole = ["*"]) ∧
      route ∈ scan "p" "a.go" text ∧ route.parse = .ok accepted ∧
      ∃ run ∈ runs (Text.lines text.toList),
        ["a", "b", "a"] =
            (if rolesOfLines (Tag.authRoles.valueTexts run) ≠ [] then
              rolesOfLines (Tag.authRoles.valueTexts run) else [anyRole]) ∧
          [] = rolesOfLines (Tag.forbiddenRoles.valueTexts run) := by
  intro lines text route accepted
  have hlisted : rolesOfLines lines = ["admin", "ops", "admin"] := by decide +kernel
  have hblank : rolesOfLines ["\u2003", ","] = [] := by decide +kernel
  have hroute : route ∈ scan "p" "a.go" text := by decide +kernel
  have hparse : route.parse = .ok accepted := Text.eq_ok_of_toOption (by decide +kernel)
  obtain ⟨hroles, -, -, hagain⟩ := roles_of_joined_lines.1 lines anyRole (Or.inl rfl)
  obtain ⟨hdefault, -⟩ := roles_of_joined_lines.1 ["\u2003", ","] anyRole (Or.inl rfl)
  rw [hlisted] at hroles
  rw [hblank] at hdefault
  rw [hroles] at hagain
  obtain ⟨run, hrun, -, hall⟩ := roles_of_joined_lines.2 "p" "a.go" text route hroute
  exact ⟨⟨hroles, hagain, hdefault⟩, hroute, hparse, run, hrun, hall accepted hparse⟩

end Source

end RoutePolicy
