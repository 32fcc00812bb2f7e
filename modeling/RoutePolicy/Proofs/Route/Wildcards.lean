import Mathlib.Data.List.DropRight
import RoutePolicy.Proofs.Route.Grammar
import RoutePolicy.Proofs.Route.Parameters
import RoutePolicy.Proofs.Text.Pieces

/-!
# Wildcards piece by piece

Collapsing goes through a path from left to right and resumes behind every parameter, so what it
does to one brace might seem to hang on all that was passed before. It does not: when the path is cut
at its opening braces, each piece is rewritten by a rule of its own (`collapsedPiece`), because the
search for a closing brace never leaves the piece. What no rule takes out is never closed, which is
why a second pass finds nothing to do.
-/

namespace RoutePolicy.Parameters

variable {s before behind piece : List Char} {pieces : List (List Char)}

/-- What becomes of an opening brace and the piece behind it: a star and the text behind the last
closing brace, or the brace and the piece as they were. -/
def collapsedPiece (piece : List Char) : List Char :=
  if '}' ∈ piece then '*' :: piece.rtakeWhile (· != '}') else '{' :: piece

theorem bne_of_not_mem {d : Char} (h : d ∉ s) : ∀ c ∈ s, (c != d) = true := fun _ hc =>
  bne_iff_ne.2 fun heq => h (heq ▸ hc)

/-! ## One opening brace -/

theorem collapse_of_unclosed (h : Unclosed s) : collapse ('{' :: s) = '{' :: collapse s := by
  rw [collapse, if_pos rfl]
  split
  · next rest hrest => cases (afterClosing?_eq_none_iff.2 h).symm.trans hrest
  · rfl

theorem afterClosing?_of_last (hbefore : '{' ∉ before) (h : Unclosed behind) :
    afterClosing? (before ++ '}' :: behind) = some behind := by
  induction before with
  | nil =>
    rw [List.nil_append, afterClosing?, if_neg (by decide), afterClosing?_eq_none_iff.2 h]
    rfl
  | cons c before ih =>
    obtain ⟨hc, hbefore⟩ := List.ne_and_not_mem_of_not_mem_cons hbefore
    rw [List.cons_append, afterClosing?, if_neg (Ne.symm hc), ih hbefore]
    rfl

theorem collapse_append (h : '{' ∉ before) : collapse (before ++ s) = before ++ collapse s := by
  induction before with
  | nil => rfl
  | cons c before ih =>
    obtain ⟨hc, hbefore⟩ := List.ne_and_not_mem_of_not_mem_cons h
    rw [List.cons_append, collapse_cons_of_ne (Ne.symm hc), ih hbefore, List.cons_append]

/-! ## Pieces -/

/-- The text in which an opening brace stands before every piece. -/
def opened (pieces : List (List Char)) : List Char := pieces.flatMap ('{' :: ·)

/-- No closing brace of a later piece closes an earlier one. -/
theorem unclosed_append_opened (hopen : '{' ∉ s) (hclose : '}' ∉ s) (pieces : List (List Char)) :
    Unclosed (s ++ opened pieces) := by
  have hnext : (opened pieces).takeWhile (· != '{') = [] := by
    cases pieces with
    | nil => rfl
    | cons piece pieces => exact List.takeWhile_cons_of_neg (by decide)
  rw [Unclosed, List.takeWhile_append_of_pos (bne_of_not_mem hopen), hnext, List.append_nil]
  exact hclose

theorem exists_last_closing (h : '}' ∈ piece) :
    ∃ before behind, piece = before ++ '}' :: behind ∧ '}' ∉ behind := by
  obtain ⟨after, rest, hparts, hafter⟩ := List.eq_append_cons_of_mem (List.mem_reverse.2 h)
  refine ⟨rest.reverse, after.reverse, ?_, by rwa [List.mem_reverse]⟩
  rw [← List.reverse_reverse piece, hparts, List.reverse_append, List.reverse_cons,
    List.append_assoc, List.singleton_append]

theorem collapsedPiece_of_last (before : List Char) (h : '}' ∉ behind) :
    collapsedPiece (before ++ '}' :: behind) = '*' :: behind := by
  have hkept : ∀ c ∈ behind.reverse, (c != '}') = true :=
    bne_of_not_mem (List.mem_reverse.not.2 h)
  rw [collapsedPiece, if_pos (List.mem_append_right before List.mem_cons_self), List.rtakeWhile,
    List.reverse_append, List.reverse_cons, List.append_assoc, List.takeWhile_append_of_pos hkept,
    List.singleton_append, List.takeWhile_cons_of_neg (by decide), List.append_nil,
    List.reverse_reverse]

/-- The pieces are rewritten one by one. -/
theorem collapse_opened (h : ∀ piece ∈ pieces, '{' ∉ piece) :
    collapse (opened pieces) = pieces.flatMap collapsedPiece := by
  induction pieces with
  | nil => rw [opened, List.flatMap_nil, List.flatMap_nil, collapse]
  | cons piece pieces ih =>
    obtain ⟨hpiece, hpieces⟩ := List.forall_mem_cons.1 h
    rw [opened, List.flatMap_cons, ← opened, List.flatMap_cons, List.cons_append, ← ih hpieces]
    -- either way the search ends within the piece, and what it leaves holds no opening brace
    by_cases hclosed : '}' ∈ piece
    · obtain ⟨before, behind, rfl, hlast⟩ := exists_last_closing hclosed
      have hbefore : '{' ∉ before := fun hmem => hpiece (List.mem_append_left _ hmem)
      have hbehind : '{' ∉ behind := fun hmem =>
        hpiece (List.mem_append_right _ (List.mem_cons_of_mem _ hmem))
      have hsearch : afterClosing? (before ++ '}' :: behind ++ opened pieces) =
          some (behind ++ opened pieces) := by
        rw [List.append_assoc, List.cons_append]
        exact afterClosing?_of_last hbefore (unclosed_append_opened hbehind hlast pieces)
      rw [collapsedPiece_of_last before hlast, collapse_opening hsearch, collapse_append hbehind,
        List.cons_append]
    · rw [collapsedPiece, if_neg hclosed,
        collapse_of_unclosed (unclosed_append_opened hpiece hclosed pieces), collapse_append hpiece,
        List.cons_append]

theorem collapse_eq_of_splitOn {first : List Char} (h : s.splitOn '{' = first :: pieces) :
    collapse s = first ++ pieces.flatMap collapsedPiece := by
  have hfree : ∀ piece ∈ first :: pieces, '{' ∉ piece := fun _ hpiece =>
    Text.not_mem_of_mem_splitOn (h ▸ hpiece)
  obtain ⟨hfirst, hpieces⟩ := List.forall_mem_cons.1 hfree
  have htext : ['{'].intercalate (s.splitOn '{') = s := List.intercalate_splitOn '{'
  rw [h, Text.intercalate_cons] at htext
  rw [← htext, ← collapse_opened hpieces, ← collapse_append hfirst]
  rfl

/-! ## A second pass -/

/-- A path none of whose opening braces is closed has no parameter. -/
theorem collapse_eq_self (h : ∀ before behind, s = before ++ '{' :: behind → '}' ∉ behind) :
    collapse s = s := by
  induction s with
  | nil => rw [collapse]
  | cons c s ih =>
    have hs : collapse s = s := ih fun before behind htext => h (c :: before) behind (congrArg _ htext)
    by_cases hc : c = '{'
    · subst hc
      have hclear : Unclosed s := fun hmem =>
        h [] s rfl ((List.takeWhile_sublist _).mem hmem)
      rw [collapse_of_unclosed hclear, hs]
    · rw [collapse_cons_of_ne hc, hs]

theorem collapse_collapse (s : List Char) : collapse (collapse s) = collapse s :=
  collapse_eq_self fun _ _ h => closing_not_mem_of_collapse_eq h

/-- A path is collapsed piece by piece: it is cut at its opening braces, and the text before the
first one is kept. No opening brace of the result is closed, and collapsing it again changes nothing.
The path that a router line is read with reaches the rule in this form. -/
theorem collapse_by_pieces (path : List Char) :
    (∃ first pieces, path.splitOn '{' = first :: pieces ∧
      collapse path = first ++ pieces.flatMap collapsedPiece) ∧
    (∀ before behind, collapse path = before ++ '{' :: behind → '}' ∉ behind) ∧
    collapse (collapse path) = collapse path ∧
    ∀ (r : Route) (reading : RouterLine.Reading r.routerLine.toList), reading.IsLeftmost →
      reading.path = path →
      ∃ accepted, r.parse = .ok accepted ∧
        accepted.rule.path = String.ofList (collapse path) := by
  refine ⟨?_, fun _ _ h => closing_not_mem_of_collapse_eq h, collapse_collapse path, ?_⟩
  · obtain ⟨first, pieces, hcut⟩ := List.exists_cons_of_ne_nil (List.splitOn_ne_nil '{' path)
    exact ⟨first, pieces, hcut, collapse_eq_of_splitOn hcut⟩
  · rintro r reading hfirst rfl
    exact ⟨_, Route.parse_of_isLeftmost hfirst, rfl⟩

/-- Of two nested parameters the inner one is collapsed, up to the second of the braces behind it. -/
theorem collapse_nested_by_pieces :
    let route : Route := { routerLine := "/a/\x7bb\x7bc\x7d\x7dd/\x7be [get]" }
    collapse "/a/\x7bb\x7bc\x7d\x7dd/\x7be".toList = "/a/\x7bb*d/\x7be".toList ∧
      ∃ accepted, route.parse = .ok accepted ∧ accepted.rule.path = "/a/\x7bb*d/\x7be" := by
  intro route
  obtain ⟨reading, hfirst, hline⟩ := RouterLine.find?_eq_some_iff.1
    (show RouterLine.find? route.routerLine.toList =
      some ⟨"/a/\x7bb\x7bc\x7d\x7dd/\x7be".toList, "get".toList⟩ by decide +kernel)
  have hpath : reading.path = "/a/\x7bb\x7bc\x7d\x7dd/\x7be".toList :=
    congrArg RouterLine.path hline
  have hcollapsed : collapse "/a/\x7bb\x7bc\x7d\x7dd/\x7be".toList =
      "/a/\x7bb*d/\x7be".toList := by decide +kernel
  obtain ⟨accepted, hparse, haccepted⟩ := (collapse_by_pieces _).2.2.2 route reading hfirst hpath
  refine ⟨hcollapsed, accepted, hparse, ?_⟩
  rw [haccepted, hcollapsed]
  exact String.ofList_toList

end RoutePolicy.Parameters
