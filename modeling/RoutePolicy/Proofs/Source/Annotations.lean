import RoutePolicy.Proofs.Route.Parse
import RoutePolicy.Proofs.Source.Runs

/-!
# Role annotations of a run

Which roles an accepted route of a run has is told by the role lines of the whole run. A line is
searched for the tags in a fixed order and is noted under the first one that it holds, so a role tag
counts where no earlier tag stands in its line: then the entries behind it reach every route of the
run. In a line with an earlier tag a role tag is part of that tag's value, and what it says is lost.
-/

namespace RoutePolicy

namespace Source

open Text (FirstPlace)

variable {tag : Tag} {comment value : List Char} {run : List (List Char)}

/-- The tag stands in the comment as a whole word and is followed by an entry. -/
def Tag.Names (tag : Tag) (comment : List Char) : Prop :=
  ∃ before behind, tag.StandsIn comment before behind ∧ HasEntry behind

/-- A line of the run in which no earlier tag stands names an entry with the tag. -/
def Tag.Annotates (tag : Tag) (run : List (List Char)) : Prop :=
  ∃ line ∈ run, (∀ other ∈ tag.earlier, ¬ other.Occurs (commentText line)) ∧
    tag.Names (commentText line)

/-- What stands behind a place of the tag ends what stands behind its first place. -/
theorem Tag.StandsFirstIn.suffix {before behind before' behind' : List Char}
    (h : tag.StandsFirstIn comment before behind) (h' : tag.StandsIn comment before' behind') :
    behind' <:+ behind := by
  have hbehind : behind <:+ comment :=
    ⟨before ++ tag.word, (List.append_assoc ..).trans h.text⟩
  have hbehind' : behind' <:+ comment :=
    ⟨before' ++ tag.word, (List.append_assoc ..).trans h'.text⟩
  have hlength := congrArg List.length (h.text.trans h'.text.symm)
  have hfirst : before.length ≤ before'.length := h.first before' behind' h'
  simp only [List.length_append] at hlength
  exact List.suffix_of_suffix_length_le hbehind' hbehind (by omega)

theorem Tag.names_iff :
    tag.Names comment ↔ ∃ value, tag.value? comment = some value ∧ HasEntry value := by
  constructor
  · rintro ⟨before', behind', hstands, hentry⟩
    cases hvalue : tag.value? comment with
    | none => exact absurd ⟨before', behind', hstands⟩ (Tag.value?_eq_none_iff.1 hvalue)
    | some value =>
      obtain ⟨before, behind, hfirst, rfl⟩ := Tag.value?_eq_some_iff.1 hvalue
      refine ⟨_, rfl, hasEntry_trim_iff.2 ?_⟩
      obtain ⟨c, hc, h⟩ := hasEntry_iff.1 hentry
      exact hasEntry_iff.2 ⟨c, (hfirst.suffix hstands).mem hc, h⟩
  · rintro ⟨value, hvalue, hentry⟩
    obtain ⟨before, behind, hfirst, rfl⟩ := Tag.value?_eq_some_iff.1 hvalue
    exact ⟨before, behind, hfirst.toStandsIn, hasEntry_trim_iff.1 hentry⟩

instance (tag : Tag) (comment : List Char) : Decidable (tag.Names comment) :=
  decidable_of_iff (∃ value ∈ tag.value? comment, HasEntry value) Tag.names_iff.symm

theorem Tag.noted?_eq_some_iff :
    tag.noted? comment = some value ↔
      (∀ other ∈ tag.earlier, ¬ other.Occurs comment) ∧ tag.value? comment = some value := by
  have hearlier : tag.earlier.all (fun other => (other.value? comment).isNone) = true ↔
      ∀ other ∈ tag.earlier, ¬ other.Occurs comment := by
    simp only [List.all_eq_true, Option.isNone_iff_eq_none, Tag.value?_eq_none_iff]
  rw [Tag.noted?, Option.ite_none_right_eq_some, hearlier]

theorem Tag.mem_values : value ∈ tag.values run ↔
    ∃ line ∈ run, (∀ other ∈ tag.earlier, ¬ other.Occurs (commentText line)) ∧
      tag.value? (commentText line) = some value := by
  simp only [Tag.values, List.mem_filterMap, List.mem_map, exists_exists_and_eq_and,
    Tag.noted?_eq_some_iff]

/-- The joined values of a tag have an entry exactly if a line of the run names one. -/
theorem Tag.hasEntry_values_iff :
    HasEntry ([','].intercalate (tag.values run)) ↔ tag.Annotates run := by
  rw [hasEntry_intercalate_iff, Tag.Annotates]
  simp only [Tag.mem_values, Tag.names_iff]
  constructor
  · rintro ⟨value, ⟨line, hline, hearlier, hvalue⟩, hentry⟩
    exact ⟨line, hline, hearlier, value, hvalue, hentry⟩
  · rintro ⟨line, hline, hearlier, value, hvalue, hentry⟩
    exact ⟨value, ⟨line, hline, hearlier, hvalue⟩, hentry⟩

/-! ## Accepted routes of a run -/

variable {package file : String} {route accepted : Route}

/-- The authorized roles are those that the route's role line lists, and the default has no part in
them. -/
def AuthorizedByName (r : Route) : Prop :=
  listedRoles r.authLine ≠ [] ∧ r.rule.authorizedRoles = listedRoles r.authLine

theorem authLine_of_mem_runRoutes (h : route ∈ runRoutes package file run) :
    route.authLine.toList = [','].intercalate (Tag.authRoles.values run) ∧
      route.forbiddenLine.toList = [','].intercalate (Tag.forbiddenRoles.values run) := by
  obtain ⟨value, -, rfl⟩ := List.mem_map.1 h
  exact ⟨String.toList_ofList, String.toList_ofList⟩

theorem authorizedByName_iff (h : route ∈ runRoutes package file run)
    (hparse : route.parse = .ok accepted) :
    AuthorizedByName accepted ↔ Tag.authRoles.Annotates run := by
  obtain ⟨line, -, rfl⟩ := Route.parse_eq_ok_iff.1 hparse
  have hlisted : listedRoles route.authLine ≠ [] ↔ Tag.authRoles.Annotates run := by
    rw [Ne, listedRoles_eq_nil_iff, not_not, (authLine_of_mem_runRoutes h).1, Tag.hasEntry_values_iff]
  rw [← hlisted]
  exact ⟨fun hnamed => hnamed.1, fun hne => ⟨hne, parseRoles_of_ne_nil hne⟩⟩

theorem forbiddenRoles_ne_nil_iff (h : route ∈ runRoutes package file run)
    (hparse : route.parse = .ok accepted) :
    accepted.rule.forbiddenRoles ≠ [] ↔ Tag.forbiddenRoles.Annotates run := by
  rw [(Route.roles_of_parse hparse).2, parseRoles_empty, Ne, listedRoles_eq_nil_iff, not_not,
    (authLine_of_mem_runRoutes h).2, Tag.hasEntry_values_iff]

theorem authorizedRoles_of_not_annotates (h : route ∈ runRoutes package file run)
    (hparse : route.parse = .ok accepted) (hnone : ¬ Tag.authRoles.Annotates run) :
    accepted.rule.authorizedRoles = [anyRole] := by
  have hnil : listedRoles route.authLine = [] := by
    rwa [listedRoles_eq_nil_iff, (authLine_of_mem_runRoutes h).1, Tag.hasEntry_values_iff]
  rw [(Route.roles_of_parse hparse).1]
  exact parseRoles_of_eq_nil hnil (by decide)

/-- The roles of an accepted route come from the lines of its run in which the role tag is the first
tag: named authorized roles are never replaced by the default, which stands only where no such line
names a role, and forbidden roles are there exactly if such a line names one. -/
theorem roles_of_annotations (packageHint file text : String) {before after : List (List Char)}
    (hrun : IsRun (Text.lines text.toList) before run after)
    (hroute : route ∈ runRoutes (packageOf packageHint (Text.lines text.toList)) file run)
    (hparse : route.parse = .ok accepted) :
    route ∈ scan packageHint file text ∧
      (AuthorizedByName accepted ↔ Tag.authRoles.Annotates run) ∧
      (¬ Tag.authRoles.Annotates run → accepted.rule.authorizedRoles = [anyRole]) ∧
      (accepted.rule.forbiddenRoles ≠ [] ↔ Tag.forbiddenRoles.Annotates run) := by
  refine ⟨?_, authorizedByName_iff hroute hparse, authorizedRoles_of_not_annotates hroute hparse,
    forbiddenRoles_ne_nil_iff hroute hparse⟩
  rw [hrun.scan_eq]
  exact List.mem_append_right _ (List.mem_append_left _ hroute)

/-- The role lines of a run stand around its router line, and one of them names nobody. -/
theorem roles_of_lines_around :
    ∃ route accepted : Route,
      route ∈ scan "p" "a.go"
          "// @AuthRoles ,\n// @Router /a [get]\n//\t@ForbiddenRoles guest\n// @AuthRoles ops\n" ∧
        route.parse = .ok accepted ∧ AuthorizedByName accepted ∧
        accepted.rule.authorizedRoles = ["ops"] ∧ accepted.rule.forbiddenRoles ≠ [] := by
  let text : String :=
    "// @AuthRoles ,\n// @Router /a [get]\n//\t@ForbiddenRoles guest\n// @AuthRoles ops\n"
  let run := Text.lines text.toList
  let route : Route :=
    { routerLine := "/a [get]", authLine := ",,ops", forbiddenLine := "guest", package := "p"
      file := "a.go" }
  obtain ⟨before, after, hrun⟩ : ∃ before after, IsRun (Text.lines text.toList) before run after :=
    exists_isRun (by decide +kernel)
  have hroute : route ∈ runRoutes (packageOf "p" (Text.lines text.toList)) "a.go" run := by
    decide +kernel
  have hparse : route.parse =
      .ok { route with
        rule := { path := "/a", method := "GET", authorizedRoles := ["ops"]
                  forbiddenRoles := ["guest"] } } :=
    Text.eq_ok_of_toOption (by decide +kernel)
  have hauthorized : Tag.authRoles.Annotates run :=
    Tag.hasEntry_values_iff.1 (by decide +kernel)
  have hforbidden : Tag.forbiddenRoles.Annotates run :=
    Tag.hasEntry_values_iff.1 (by decide +kernel)
  have hroles := roles_of_annotations "p" "a.go" text hrun hroute hparse
  exact ⟨route, _, hroles.1, hparse, hroles.2.1.2 hauthorized, rfl, hroles.2.2.2.2 hforbidden⟩

/-- A role tag reaches the routes of its run, whatever other tags stand in its line. -/
def KeepsAnnotations (packageHint file text : String) : Prop :=
  ∀ before run after, IsRun (Text.lines text.toList) before run after →
    ∀ route ∈ runRoutes (packageOf packageHint (Text.lines text.toList)) file run,
      ∀ accepted, route.parse = .ok accepted →
        ((∃ line ∈ run, Tag.authRoles.Names (commentText line)) → AuthorizedByName accepted) ∧
          ((∃ line ∈ run, Tag.forbiddenRoles.Names (commentText line)) →
            accepted.rule.forbiddenRoles ≠ [])

theorem KeepsAnnotations.of_mem_runs {packageHint text : String}
    (h : KeepsAnnotations packageHint file text) (run : List (List Char)) (route accepted : Route)
    (hrun : run ∈ runs (Text.lines text.toList))
    (hroute : route ∈ runRoutes (packageOf packageHint (Text.lines text.toList)) file run)
    (hparse : route.parse.toOption = some accepted) :
    ((∃ line ∈ run, Tag.authRoles.Names (commentText line)) → AuthorizedByName accepted) ∧
      ((∃ line ∈ run, Tag.forbiddenRoles.Names (commentText line)) →
        accepted.rule.forbiddenRoles ≠ []) := by
  obtain ⟨before, after, hrun⟩ := exists_isRun hrun
  exact h before run after hrun route hroute accepted (Text.eq_ok_of_toOption hparse)

/-- A role tag is lost to the router tag in its line, and a tag of forbidden roles also to one of
authorized roles. -/
theorem not_keepsAnnotations :
    ¬ KeepsAnnotations "p" "a.go" "// @Router /a [get] @AuthRoles admin\n" ∧
      ¬ KeepsAnnotations "p" "a.go" "// @Router /a [get] @ForbiddenRoles guest\n" ∧
      ¬ KeepsAnnotations "p" "a.go"
        "// @Router /a [get]\n// @AuthRoles admin @ForbiddenRoles guest\n" := by
  refine ⟨fun h => ?_, fun h => ?_, fun h => ?_⟩
  · let route : Route :=
      { routerLine := "/a [get] @AuthRoles admin", package := "p", file := "a.go" }
    have hkept := h.of_mem_runs ["// @Router /a [get] @AuthRoles admin".toList] route
      { route with rule := { path := "/a", method := "GET", authorizedRoles := ["*"] } }
      (by decide +kernel) (by decide +kernel) (by decide +kernel)
    exact (hkept.1 (by decide +kernel)).1 (by decide +kernel)
  · let route : Route :=
      { routerLine := "/a [get] @ForbiddenRoles guest", package := "p", file := "a.go" }
    have hkept := h.of_mem_runs ["// @Router /a [get] @ForbiddenRoles guest".toList] route
      { route with rule := { path := "/a", method := "GET", authorizedRoles := ["*"] } }
      (by decide +kernel) (by decide +kernel) (by decide +kernel)
    exact hkept.2 (by decide +kernel) rfl
  · let route : Route :=
      { routerLine := "/a [get]", authLine := "admin @ForbiddenRoles guest", package := "p"
        file := "a.go" }
    have hkept := h.of_mem_runs
      ["// @Router /a [get]".toList, "// @AuthRoles admin @ForbiddenRoles guest".toList] route
      { route with
        rule := { path := "/a", method := "GET"
                  authorizedRoles := ["admin @ForbiddenRoles guest"] } }
      (by decide +kernel) (by decide +kernel) (by decide +kernel)
    exact hkept.2 (by decide +kernel) rfl

/-! ## Routes as they are found

A route that was found has nothing but its lines: its rule is blank until it is parsed. The role
lines are made from lines of the text, so that no newline stands in them. -/

variable {packageHint text : String} {lines : List (List Char)}

theorem mem_of_mem_run {line : List Char} (hrun : run ∈ runs lines) (h : line ∈ run) :
    line ∈ lines := by
  obtain ⟨before, after, hrun⟩ := exists_isRun hrun
  rw [← hrun.lines_eq]
  exact List.mem_append_right before (List.mem_append_left after h)

/-- A value is cut out of its line. -/
theorem Tag.mem_of_value? {line : List Char} {c : Char}
    (h : tag.value? (commentText line) = some value) (hc : c ∈ value) : c ∈ line := by
  obtain ⟨before, behind, hfirst, rfl⟩ := Tag.value?_eq_some_iff.1 h
  have hcomment : c ∈ commentText line := by
    rw [← hfirst.text]
    exact List.mem_append_right _ (List.mem_append_right _ (Text.mem_of_mem_trim hc))
  exact (List.dropWhile_sublist Text.isBlank).mem (List.mem_of_mem_drop hcomment)

theorem newline_not_mem_joined_values (hrun : run ∈ runs (Text.lines text.toList)) :
    '\n' ∉ [','].intercalate (tag.values run) := by
  intro hmem
  obtain ⟨value, hvalue, hnewline⟩ := (Text.mem_intercalate (by decide)).1 hmem
  obtain ⟨line, hline, -, hfound⟩ := Tag.mem_values.1 hvalue
  exact Text.newline_not_mem_of_mem_lines (mem_of_mem_run hrun hline)
    (Tag.mem_of_value? hfound hnewline)

theorem found_of_mem_scan (h : route ∈ scan packageHint file text) :
    route.rule = {} ∧ '\n' ∉ route.authLine.toList ∧ '\n' ∉ route.forbiddenLine.toList := by
  rw [scan_eq_flatMap_runs] at h
  obtain ⟨run, hrun, hroute⟩ := List.mem_flatMap.1 h
  obtain ⟨hauth, hforbidden⟩ := authLine_of_mem_runRoutes hroute
  have hrule : route.rule = {} := by
    obtain ⟨_, -, rfl⟩ := List.mem_map.1 hroute
    rfl
  rw [hauth, hforbidden]
  exact ⟨hrule, newline_not_mem_joined_values hrun, newline_not_mem_joined_values hrun⟩

end Source

end RoutePolicy
