import RoutePolicy.Proofs.Source.Scan

/-!
# Runs of comment lines

`runs lines` are the maximal runs of comment lines, and `runRoutes` says which routes one run gives,
without a word about the block that scanning fills: a route for every router line, with the role
values of the whole run. Scanning a text gives the routes of its runs, one run after the other
(`scan_eq_flatMap_runs`). So the routes of a run do not depend on the lines outside of it.
-/

namespace RoutePolicy.Source

open Text (isBlank)

variable {package file : String} {line : List Char} {lines run : List (List Char)}

/-! ## Maximal runs -/

/-- The maximal runs of comment lines: what lies between the other lines, unless that is empty. -/
def runs (lines : List (List Char)) : List (List (List Char)) :=
  (lines.splitOnP fun line => !isComment line).filter fun run => !run.isEmpty

/-- Between `before` and `after` lies a run of comment lines that goes on at neither end. -/
structure IsRun (lines before run after : List (List Char)) : Prop where
  lines_eq : before ++ (run ++ after) = lines
  ne_nil : run ≠ []
  comments : ∀ line ∈ run, isComment line = true
  before_end : ∀ line, before.getLast? = some line → isComment line = false
  after_start : ∀ line, after.head? = some line → isComment line = false

theorem runs_nil : runs [] = [] := rfl

theorem runs_of_comments (hne : run ≠ []) (h : ∀ line ∈ run, isComment line = true) :
    runs run = [run] := by
  have hcut : run.splitOnP (fun line => !isComment line) = [run] :=
    List.splitOnP_eq_singleton fun line hline => by rw [h line hline]; rfl
  have hfull : (!run.isEmpty) = true := by simpa using hne
  rw [runs, hcut, List.filter_singleton, hfull, cond_true]

/-- A line that is no comment parts the runs before it from those behind it. -/
theorem runs_append_cons (before after : List (List Char)) (h : isComment line = false) :
    runs (before ++ line :: after) = runs before ++ runs after := by
  have hcut : (!isComment line) = true := by rw [h]; rfl
  rw [runs, List.splitOnP_append_cons before after hcut, List.filter_append, ← runs, ← runs]

/-- Lines are all comments, or begin with comments up to a line that is none. -/
theorem lines_induction {motive : List (List Char) → Prop}
    (comments : ∀ run, (∀ line ∈ run, isComment line = true) → motive run)
    (code : ∀ run line rest, (∀ line ∈ run, isComment line = true) → isComment line = false →
      motive rest → motive (run ++ line :: rest))
    (lines : List (List Char)) : motive lines := by
  -- `run` is the comments already passed; the next other line ends it, or the end of the text
  have hall : ∀ run, (∀ line ∈ run, isComment line = true) → motive (run ++ lines) := by
    induction lines with
    | nil =>
      intro run hrun
      rw [List.append_nil]
      exact comments run hrun
    | cons line lines ih =>
      intro run hrun
      cases hline : isComment line with
      | true =>
        have hmore : ∀ other ∈ run ++ [line], isComment other = true := by
          intro other hother
          rcases List.mem_append.1 hother with hother | hother
          · exact hrun other hother
          · rwa [List.mem_singleton.1 hother]
        rw [← List.singleton_append, ← List.append_assoc]
        exact ih (run ++ [line]) hmore
      | false => exact code run line lines hrun hline (ih [] fun _ h => absurd h List.not_mem_nil)
  exact hall [] fun _ h => absurd h List.not_mem_nil

theorem IsRun.runs_eq {before after : List (List Char)} (h : IsRun lines before run after) :
    runs lines = runs before ++ run :: runs after := by
  have hafter : runs (run ++ after) = run :: runs after := by
    cases after with
    | nil => rw [List.append_nil, runs_of_comments h.ne_nil h.comments, runs_nil]
    | cons line after =>
      rw [runs_append_cons run after (h.after_start line rfl),
        runs_of_comments h.ne_nil h.comments, ← List.nil_append (line :: after),
        runs_append_cons [] after (h.after_start line rfl), runs_nil]
      rfl
  rw [← h.lines_eq]
  rcases List.eq_nil_or_concat before with rfl | ⟨before, line, rfl⟩
  · rw [List.nil_append, hafter, runs_nil, List.nil_append]
  · have hline : isComment line = false := h.before_end line (by rw [List.concat_eq_append, List.getLast?_concat])
    rw [List.concat_eq_append, List.append_assoc, List.singleton_append,
      runs_append_cons before _ hline, hafter, runs_append_cons before [] hline, runs_nil,
      List.append_nil]

theorem exists_isRun (h : run ∈ runs lines) : ∃ before after, IsRun lines before run after := by
  induction lines using lines_induction with
  | comments other hother =>
    by_cases hne : other = []
    · rw [hne, runs_nil] at h
      exact absurd h List.not_mem_nil
    · rw [runs_of_comments hne hother, List.mem_singleton] at h
      subst h
      exact ⟨[], [], by simp, hne, hother, by simp, by simp⟩
  | code other line rest hother hline ih =>
    rw [runs_append_cons other rest hline, List.mem_append] at h
    rcases h with h | h
    · have hne : other ≠ [] := by
        rintro rfl
        exact absurd h List.not_mem_nil
      rw [runs_of_comments hne hother, List.mem_singleton] at h
      subst h
      refine ⟨[], line :: rest, rfl, hne, hother, by simp, ?_⟩
      intro first hfirst
      rwa [← Option.some.inj hfirst]
    · obtain ⟨before, after, hrun⟩ := ih h
      refine ⟨other ++ line :: before, after, ?_, hrun.ne_nil, hrun.comments, ?_, hrun.after_start⟩
      · rw [List.append_assoc, List.cons_append, hrun.lines_eq]
      · intro last hlast
        rw [List.getLast?_append_of_ne_nil other (List.cons_ne_nil line before),
          List.getLast?_cons] at hlast
        cases hend : before.getLast? with
        | none =>
          rw [hend] at hlast
          rwa [← Option.some.inj hlast]
        | some other =>
          rw [hend] at hlast
          exact hrun.before_end last (hend.trans hlast)

/-! ## The routes of a run -/

/-- The tags for which a line is searched before this one. -/
def Tag.earlier : Tag → List Tag
  | router => []
  | authRoles => [router]
  | forbiddenRoles => [router, authRoles]

/-- The value of a tag in a comment that holds no earlier tag. -/
def Tag.noted? (tag : Tag) (comment : List Char) : Option (List Char) :=
  if tag.earlier.all (fun other => (other.value? comment).isNone) then tag.value? comment else none

def Tag.values (tag : Tag) (run : List (List Char)) : List (List Char) :=
  (run.map commentText).filterMap tag.noted?

def runRoutes (package file : String) (run : List (List Char)) : List Route :=
  (Tag.router.values run).map fun value =>
    { routerLine := String.ofList value
      authLine := String.ofList ([','].intercalate (Tag.authRoles.values run))
      forbiddenLine := String.ofList ([','].intercalate (Tag.forbiddenRoles.values run))
      package := package
      file := file
      tags := []
      rule := {} }

/-- A comment is noted under the first tag that it holds. -/
theorem Block.note_eq (b : Block) (comment : List Char) :
    b.note comment =
      { routers := b.routers ++ (Tag.router.noted? comment).toList
        authRoles := b.authRoles ++ (Tag.authRoles.noted? comment).toList
        forbiddenRoles := b.forbiddenRoles ++ (Tag.forbiddenRoles.noted? comment).toList } := by
  cases hrouter : Tag.router.value? comment with
  | some value => simp [Block.note, Tag.noted?, Tag.earlier, hrouter]
  | none =>
    cases hauth : Tag.authRoles.value? comment with
    | some value => simp [Block.note, Tag.noted?, Tag.earlier, hrouter, hauth]
    | none =>
      cases hforbidden : Tag.forbiddenRoles.value? comment with
      | some value => simp [Block.note, Tag.noted?, Tag.earlier, hrouter, hauth, hforbidden]
      | none => simp [Block.note, Tag.noted?, Tag.earlier, hrouter, hauth, hforbidden]

theorem Block.foldl_note_eq (b : Block) (comments : List (List Char)) :
    comments.foldl Block.note b =
      { routers := b.routers ++ comments.filterMap Tag.router.noted?
        authRoles := b.authRoles ++ comments.filterMap Tag.authRoles.noted?
        forbiddenRoles := b.forbiddenRoles ++ comments.filterMap Tag.forbiddenRoles.noted? } := by
  have hcons : ∀ (tag : Tag) (comment : List Char) (rest : List (List Char)),
      (comment :: rest).filterMap tag.noted? =
        (tag.noted? comment).toList ++ rest.filterMap tag.noted? := by
    intro tag comment rest
    rw [List.filterMap_cons]
    cases tag.noted? comment <;> rfl
  induction comments generalizing b with
  | nil => simp
  | cons comment comments ih => simp only [List.foldl_cons, ih, Block.note_eq, hcons, List.append_assoc]

theorem routes_foldl_note (package file : String) (run : List (List Char)) :
    ((run.map commentText).foldl Block.note {}).routes package file =
      runRoutes package file run := by
  rw [Block.foldl_note_eq]
  rfl

/-! ## Scanning -/

theorem flatMap_runs_of_comments (h : ∀ line ∈ run, isComment line = true) :
    (runs run).flatMap (runRoutes package file) = runRoutes package file run := by
  by_cases hne : run = []
  · rw [hne]
    rfl
  · rw [runs_of_comments hne h, List.flatMap_singleton]

theorem scanLines_eq (package file : String) (lines : List (List Char)) :
    scanLines package file {} lines = (runs lines).flatMap (runRoutes package file) := by
  induction lines using lines_induction with
  | comments run hrun =>
    rw [flatMap_runs_of_comments hrun, ← routes_foldl_note, ← List.append_nil run,
      scanLines_append_comments {} hrun, List.append_nil]
    rfl
  | code run line rest hrun hline ih =>
    rw [runs_append_cons run rest hline, List.flatMap_append, flatMap_runs_of_comments hrun, ← ih,
      scanLines_append_comments {} hrun, scanLines, comment?_eq, hline, ← routes_foldl_note]
    rfl

theorem scan_eq_flatMap_runs (packageHint file text : String) :
    scan packageHint file text =
      (runs (Text.lines text.toList)).flatMap
        (runRoutes (packageOf packageHint (Text.lines text.toList)) file) := by
  rw [scan_eq_scanLines, scanLines_eq]

/-- The lines around a run are scanned as if it had not been there. -/
theorem IsRun.scan_eq {packageHint text : String} {before after : List (List Char)}
    (h : IsRun (Text.lines text.toList) before run after) :
    scan packageHint file text =
      scanLines (packageOf packageHint (Text.lines text.toList)) file {} before ++
        (runRoutes (packageOf packageHint (Text.lines text.toList)) file run ++
          scanLines (packageOf packageHint (Text.lines text.toList)) file {} after) := by
  rw [scan_eq_flatMap_runs, h.runs_eq, List.flatMap_append, List.flatMap_cons, scanLines_eq,
    scanLines_eq]

/-- Scanning a text gives the routes of its maximal runs of comment lines, one run after the other,
and the routes of a run are made from its own lines and the package. A value is the trimmed text
behind the first place where its tag stands as a whole word. -/
theorem scan_routes_of_runs (packageHint file text : String) :
    scan packageHint file text =
        (runs (Text.lines text.toList)).flatMap
          (runRoutes (packageOf packageHint (Text.lines text.toList)) file) ∧
      (∀ run ∈ runs (Text.lines text.toList),
        ∃ before after, IsRun (Text.lines text.toList) before run after) ∧
      (∀ before run after, IsRun (Text.lines text.toList) before run after →
        runs (Text.lines text.toList) = runs before ++ run :: runs after ∧
          scan packageHint file text =
            scanLines (packageOf packageHint (Text.lines text.toList)) file {} before ++
              (runRoutes (packageOf packageHint (Text.lines text.toList)) file run ++
                scanLines (packageOf packageHint (Text.lines text.toList)) file {} after)) ∧
      ∀ (tag : Tag) (comment : List Char),
        (∀ value, tag.value? comment = some value ↔
          ∃ before behind, tag.StandsFirstIn comment before behind ∧ Text.trim behind = value) ∧
        (tag.value? comment = none ↔ ¬ tag.Occurs comment) := by
  refine ⟨scan_eq_flatMap_runs packageHint file text, fun run => exists_isRun, ?_, ?_⟩
  · exact fun before run after hrun => ⟨hrun.runs_eq, hrun.scan_eq⟩
  · exact fun tag comment => ⟨fun value => Tag.value?_eq_some_iff, Tag.value?_eq_none_iff⟩

end RoutePolicy.Source
