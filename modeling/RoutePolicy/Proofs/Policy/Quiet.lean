import RoutePolicy.Policy
import RoutePolicy.Proofs.Decimal.Digits
import RoutePolicy.Proofs.Json.Parts
import RoutePolicy.Proofs.Source.Annotations

/-!
# Policies as source texts

A policy file may lie in the tree that is scanned. Host, path and roles can hold any text, also one
that looks like an annotation; but a slash of theirs stands behind the quote that opens the text,
and a newline of theirs is escaped, so that no line of a policy is a comment line.
-/

namespace RoutePolicy

namespace Source

open Text (isBlank)

/-- Every slash stands behind something else in its line. -/
def Quiet (s : List Char) : Prop :=
  ∀ before behind, s = before ++ '/' :: behind →
    ∃ early c late, before = early ++ c :: late ∧ isBlank c = false ∧ '\n' ∉ late

variable {s s' line : List Char} {c : Char} {parts : List (List Char)}

theorem Quiet.of_not_mem (h : '/' ∉ s) : Quiet s := by
  rintro before behind rfl
  exact absurd (List.mem_append_right before List.mem_cons_self) h

/-- What begins with a visible character and stays on one line is quiet. -/
theorem Quiet.cons (hslash : c ≠ '/') (hc : isBlank c = false) (hs : '\n' ∉ s) :
    Quiet (c :: s) := by
  intro before behind heq
  cases before with
  | nil => exact absurd (List.cons.inj heq).1 hslash
  | cons first before =>
    obtain ⟨rfl, rfl⟩ := List.cons.inj heq
    exact ⟨[], c, before, rfl, hc, fun h => hs (List.mem_append_left _ h)⟩

theorem Quiet.append (h : Quiet s) (h' : Quiet s') : Quiet (s ++ s') := by
  intro before behind heq
  rcases List.append_eq_append_iff.1 heq with ⟨middle, hbefore, hmiddle⟩ | ⟨middle, hs, hmiddle⟩
  · obtain ⟨early, c, late, rfl, hc, hlate⟩ := h' middle behind hmiddle
    exact ⟨s ++ early, c, late, by rw [hbefore, List.append_assoc], hc, hlate⟩
  · cases middle with
    | nil =>
      obtain ⟨early, c, late, hearly, -⟩ := h' [] behind hmiddle.symm
      exact absurd hearly (by simp)
    | cons slash middle =>
      obtain ⟨rfl, -⟩ := List.cons.inj hmiddle
      exact h before middle hs

theorem Quiet.push (hslash : c ≠ '/') (h : Quiet s) : Quiet (c :: s) :=
  .append (.of_not_mem fun hmem => hslash (List.mem_singleton.1 hmem).symm) h

theorem Quiet.flatten {pieces : List (List Char)} (h : ∀ piece ∈ pieces, Quiet piece) :
    Quiet pieces.flatten := by
  induction pieces with
  | nil => exact .of_not_mem List.not_mem_nil
  | cons piece pieces ih =>
    obtain ⟨hpiece, hpieces⟩ := List.forall_mem_cons.1 h
    rw [List.flatten_cons]
    exact hpiece.append (ih hpieces)

/-! ## Lines -/

theorem intercalate_append_cons (separator piece : List Char) (before behind : List (List Char)) :
    separator.intercalate (before ++ piece :: behind) =
      before.flatMap (· ++ separator) ++ (piece ++ behind.flatMap (separator ++ ·)) := by
  induction before with
  | nil => rw [List.nil_append, List.flatMap_nil, List.nil_append, Text.intercalate_cons]
  | cons other before ih =>
    have hne : before ++ piece :: behind ≠ [] :=
      List.append_ne_nil_of_right_ne_nil _ (List.cons_ne_nil piece behind)
    rw [List.cons_append, List.intercalate_cons_of_ne_nil hne, ih, List.flatMap_cons]
    simp only [List.append_assoc]

theorem exists_prefix_of_mem_linesOfPieces {pieces : List (List Char)}
    (h : line ∈ Text.linesOfPieces pieces) : ∃ piece ∈ pieces, line <+: piece := by
  fun_induction Text.linesOfPieces pieces with
  | case1 => cases h
  | case2 => cases h
  | case3 last =>
    rw [List.mem_singleton.1 h]
    exact ⟨last, List.mem_singleton_self last, List.prefix_rfl⟩
  | case4 piece pieces _ ih =>
    rcases List.mem_cons.1 h with rfl | h
    · refine ⟨piece, List.mem_cons_self, ?_⟩
      rw [Text.dropReturn]
      split
      · exact List.dropLast_prefix piece
      · exact List.prefix_rfl
    · obtain ⟨other, hother, hprefix⟩ := ih h
      exact ⟨other, List.mem_cons_of_mem piece hother, hprefix⟩

/-- A line of a text stands at the start or behind a newline. -/
theorem exists_append_of_mem_lines (h : line ∈ Text.lines s) :
    ∃ before behind, s = before ++ (line ++ behind) ∧ ∀ c, before.getLast? = some c → c = '\n' := by
  obtain ⟨piece, hpiece, rest, rfl⟩ := exists_prefix_of_mem_linesOfPieces h
  obtain ⟨before, behind, hpieces⟩ := List.append_of_mem hpiece
  refine ⟨before.flatMap (· ++ ['\n']), rest ++ behind.flatMap (['\n'] ++ ·), ?_, ?_⟩
  · rw [← List.append_assoc line, ← intercalate_append_cons, ← hpieces, List.intercalate_splitOn]
  · intro c hc
    rcases List.eq_nil_or_concat before with rfl | ⟨before, last, rfl⟩
    · cases hc
    · rw [List.concat_eq_append, List.flatMap_append, List.flatMap_singleton, ← List.append_assoc,
        List.getLast?_concat] at hc
      exact (Option.some.inj hc).symm

theorem Quiet.isComment_eq_false (h : Quiet s) (hline : line ∈ Text.lines s) :
    isComment line = false := by
  rw [← Bool.not_eq_true]
  intro hcomment
  obtain ⟨rest, hrest⟩ := List.isPrefixOf_iff_prefix.1 hcomment
  obtain ⟨before, behind, rfl, hbefore⟩ := exists_append_of_mem_lines hline
  have hsplit : line = line.takeWhile isBlank ++ '/' :: '/' :: rest := by
    conv_lhs => rw [← List.takeWhile_append_dropWhile (p := isBlank) (l := line)]
    exact congrArg _ hrest.symm
  have hblank : ∀ c ∈ line.takeWhile isBlank, isBlank c = true :=
    List.all_eq_true.1 List.all_takeWhile
  generalize line.takeWhile isBlank = blanks at hsplit hblank
  subst hsplit
  have hslash : before ++ (blanks ++ '/' :: '/' :: rest ++ behind) =
      (before ++ blanks) ++ '/' :: ('/' :: rest ++ behind) := by simp
  -- what stands before the slash in its line is not among the blanks, so it ends the line before
  obtain ⟨early, c, late, hearly, hc, hlate⟩ := h _ _ hslash
  have hnot : c ∉ blanks :=
    fun hmem => absurd (hblank c hmem) (by rw [hc]; exact Bool.false_ne_true)
  rcases List.append_eq_append_iff.1 hearly with ⟨middle, -, hmiddle⟩ | ⟨middle, rfl, hmiddle⟩
  · exact hnot (hmiddle ▸ List.mem_append_right middle List.mem_cons_self)
  cases middle with
  | nil =>
    rw [List.nil_append] at hmiddle
    exact hnot (hmiddle ▸ List.mem_cons_self)
  | cons first middle =>
    obtain ⟨rfl, rfl⟩ := List.cons.inj hmiddle
    rw [List.getLast?_append_of_ne_nil early (List.cons_ne_nil c middle), List.getLast?_cons]
      at hbefore
    cases hlast : middle.getLast? with
    | none =>
      rw [hlast] at hbefore
      rw [hbefore c rfl] at hc
      exact absurd hc (by decide)
    | some last =>
      rw [hlast] at hbefore
      rw [hbefore last rfl] at hlast
      exact hlate (List.mem_append_left blanks (List.mem_of_getLast? hlast))

/-- No route is found in a quiet text. -/
theorem Quiet.scan_eq_nil {text : String} (h : Quiet text.toList) (packageHint file : String) :
    scan packageHint file text = [] := by
  have hruns : runs (Text.lines text.toList) = [] := by
    rw [List.eq_nil_iff_forall_not_mem]
    intro run hrun
    obtain ⟨before, after, hisRun⟩ := exists_isRun hrun
    obtain ⟨line, hline⟩ := List.exists_mem_of_ne_nil run hisRun.ne_nil
    have hcomment := hisRun.comments line hline
    rw [h.isComment_eq_false (mem_of_mem_run hrun hline)] at hcomment
    cases hcomment
  rw [scan_eq_flatMap_runs, hruns, List.flatMap_nil]

end Source

/-! ## Written policies -/

open Source (Quiet)

namespace Json

variable {s : List Char}

theorem newline_not_mem_encodeChar (c : Char) : '\n' ∉ encodeChar c := by
  have hdigit : ∀ n < 16, Text.hexDigit n ≠ '\n' := by decide
  rw [encodeChar]
  split
  · decide
  split
  · decide
  split
  · decide
  split
  · decide
  split
  · decide
  split
  · decide
  split
  · decide
  split
  · next hcontrol =>
    have hhigh := hdigit (c.toNat / 16) (by omega)
    have hlow := hdigit (c.toNat % 16) (by omega)
    simp [hhigh.symm, hlow.symm]
  · next hnewline _ _ _ => exact fun hmem => hnewline (List.mem_singleton.1 hmem).symm

theorem quiet_encode (s : List Char) : Quiet (encode s) := by
  refine Quiet.cons (by decide) (by decide) fun hmem => ?_
  rcases List.mem_append.1 hmem with hmem | hquote
  · obtain ⟨c, -, hc⟩ := List.mem_flatMap.1 hmem
    exact newline_not_mem_encodeChar c hc
  · exact absurd hquote (by decide)

theorem quiet_of_blanks (h : Blanks s) : Quiet s :=
  .of_not_mem fun hmem => absurd (h '/' hmem) (by decide)

theorem quiet_container {opening closing : Char} (l : Layout) (hopening : opening ≠ '/')
    (hclosing : closing ≠ '/') {parts : List (List Char)} (h : ∀ part ∈ parts, Quiet part) :
    Quiet (l.container opening closing parts) := by
  cases parts with
  | nil => exact .push hopening (.push hclosing (.of_not_mem List.not_mem_nil))
  | cons part parts =>
    obtain ⟨hpart, hparts⟩ := List.forall_mem_cons.1 h
    obtain ⟨before, between, after, hbefore, hbetween, hafter, heq⟩ :=
      l.exists_container_eq opening closing
    have hothers : Quiet (parts.flatMap (',' :: between ++ ·)) := by
      refine .flatten (List.forall_mem_map.2 fun other hother => ?_)
      exact .append (.push (by decide) (quiet_of_blanks hbetween)) (hparts other hother)
    have hend : Quiet (after ++ [closing]) :=
      (quiet_of_blanks hafter).append (.push hclosing (.of_not_mem List.not_mem_nil))
    rw [heq]
    exact .push hopening ((quiet_of_blanks hbefore).append (hpart.append (hothers.append hend)))

theorem quiet_colon (l : Layout) : Quiet l.colon := by
  cases l with
  | compact => exact .of_not_mem (show '/' ∉ [':'] by decide)
  | indented => exact .of_not_mem (show '/' ∉ [':', ' '] by decide)

theorem quiet_object (l : Layout) {members : List (List Char × List Char)}
    (h : ∀ m ∈ members, Quiet m.2) : Quiet (l.object members) := by
  refine quiet_container l (by decide) (by decide) (List.forall_mem_map.2 fun m hm => ?_)
  exact ((quiet_encode m.1).append (quiet_colon l)).append (h m hm)

end Json

namespace Rule

open Json

theorem quiet_ofInt (i : Int) : Quiet (Decimal.ofInt i) := by
  have hdigits : ∀ n, Quiet (Decimal.digits n) := fun n =>
    .of_not_mem fun hmem => absurd (Decimal.isDigit_of_mem_digits hmem).1 (by decide)
  rw [Decimal.ofInt]
  split
  · exact .push (by decide) (hdigits _)
  · exact hdigits _

theorem quiet_written (l : Layout) (r : Rule) (m : Member) : Quiet (m.written l r) := by
  have hroles : ∀ roles : List String,
      Quiet (l.list (roles.map fun role => encode role.toList)) := fun roles =>
    quiet_container l (by decide) (by decide) (List.forall_mem_map.2 fun _ _ => quiet_encode _)
  cases m with
  | id => exact quiet_ofInt _
  | host => exact quiet_encode _
  | path => exact quiet_encode _
  | method => exact quiet_encode _
  | authorizedRoles => exact hroles _
  | forbiddenRoles => exact hroles _
  | allowAnyone =>
    rw [Member.written]
    split <;> exact .of_not_mem (by decide)

theorem quiet_write (l : Layout) (r : Rule) : Quiet (r.write l) :=
  quiet_object l (List.forall_mem_map.2 fun m _ => quiet_written l.inner r m)

end Rule

namespace Policy

theorem quiet_toJson (rules : List Rule) : Quiet (toJson rules).toList := by
  rw [toJson, String.toList_ofList, write]
  refine .append (Json.quiet_container _ (by decide) (by decide) ?_) (.of_not_mem (by decide))
  exact List.forall_mem_map.2 fun r _ => r.quiet_write _

/-- No route is found in a policy document, whatever texts its rules hold. -/
theorem scan_toJson (packageHint file : String) (rules : List Rule) :
    Source.scan packageHint file (toJson rules) = [] :=
  (quiet_toJson rules).scan_eq_nil packageHint file

end Policy

end RoutePolicy
