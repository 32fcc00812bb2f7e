import Mathlib.Data.List.Forall2
import RoutePolicy.Proofs.Source.Scan

/-!
# Spacing

What a line says does not depend on the blanks around it. Blanks at its end are part of the comment,
but no tag is found in them, none is missed because of them, and the value of a tag is trimmed. So a
text is scanned as its trimmed pieces between newlines would be (`scan_eq_scanLines_trimmed`): it
makes no difference that a line loses a carriage return at its end, nor that the last piece is a line
only if it holds something.
-/

namespace RoutePolicy.Source

open Text (isBlank Blank trim)

variable {package file : String} {word s blanks : List Char} {fresh : Bool}

/-! ## Blanks behind a comment -/

/-- What follows the start of a text ends with the blanks that the text ends with. -/
theorem afterStart?_append_blank (hword : ∀ c ∈ word, isBlank c = false) (h : Blank blanks) :
    Text.afterStart? word (s ++ blanks) = (Text.afterStart? word s).map (· ++ blanks) := by
  cases hs : Text.afterStart? word s with
  | some rest =>
    rw [← Text.afterStart?_eq_some_iff.1 hs, List.append_assoc, Text.afterStart?_append]
    rfl
  | none =>
    rw [Option.map_none, Option.eq_none_iff_forall_ne_some]
    intro rest hrest
    rcases List.append_eq_append_iff.1 (Text.afterStart?_eq_some_iff.1 hrest) with
      ⟨behind, hbehind, -⟩ | ⟨beyond, hbeyond, hblanks⟩
    · cases hs.symm.trans (Text.afterStart?_eq_some_iff.2 hbehind.symm)
    · -- what of the word lies beyond the text is blank, and no character of the word is
      have hnil : beyond = [] := by
        rw [List.eq_nil_iff_forall_not_mem]
        intro c hc
        have hblank : isBlank c = true := h c (hblanks ▸ List.mem_append_left _ hc)
        have hnot : isBlank c = false := hword c (hbeyond ▸ List.mem_append_right _ hc)
        exact absurd (hblank.symm.trans hnot) (by decide)
      rw [hnil, List.append_nil] at hbeyond
      cases hs.symm.trans (Text.afterStart?_eq_some_iff.2 ((List.append_nil word).trans hbeyond))

theorem startsBlank_append_blank (h : Blank blanks) (rest : List Char) :
    startsBlank (rest ++ blanks) = startsBlank rest := by
  cases rest with
  | cons c rest => rfl
  | nil =>
    cases blanks with
    | nil => rfl
    | cons c blanks => exact h c List.mem_cons_self

theorem valueFrom?_append_blank (hne : word ≠ []) (hword : ∀ c ∈ word, isBlank c = false)
    (h : Blank blanks) : valueFrom? word fresh (s ++ blanks) = valueFrom? word fresh s := by
  induction s generalizing fresh with
  | nil =>
    obtain ⟨mark, hmark⟩ := List.exists_mem_of_ne_nil word hne
    have hblanks : mark ∉ blanks := fun hmem =>
      absurd ((h mark hmem).symm.trans (hword mark hmark)) (by decide)
    rw [List.nil_append, valueFrom?_eq_none hmark hblanks]
    rfl
  | cons c s ih =>
    rw [List.cons_append, valueFrom?, ← List.cons_append, afterStart?_append_blank hword h, ih,
      valueFrom?]
    cases fresh with
    | false => rfl
    | true =>
      cases Text.afterStart? word (c :: s) with
      | none => rfl
      | some rest =>
        simp only [if_true, Option.map_some, startsBlank_append_blank h,
          Text.trim_append_blank rest h]

theorem Tag.isBlank_of_mem_word (tag : Tag) : ∀ c ∈ tag.word, isBlank c = false := by
  have hall : tag.word.all (fun c => !isBlank c) = true := by cases tag <;> decide
  simpa using hall

theorem Tag.value?_append_blank (tag : Tag) (h : Blank blanks) (comment : List Char) :
    tag.value? (comment ++ blanks) = tag.value? comment :=
  valueFrom?_append_blank tag.word_ne_nil tag.isBlank_of_mem_word h

theorem Block.note_append_blank (b : Block) (h : Blank blanks) (comment : List Char) :
    b.note (comment ++ blanks) = b.note comment := by
  simp only [Block.note, Tag.value?_append_blank _ h]

/-! ## Trimmed lines -/

/-- The comment of a line is that of the trimmed line, with the blanks from the end of the line. -/
theorem exists_comment?_eq (line : List Char) :
    ∃ blanks, Blank blanks ∧ comment? line = (comment? (trim line)).map (· ++ blanks) := by
  obtain ⟨blanks, hblank, hline⟩ := Text.exists_trimStart_eq_append line
  refine ⟨blanks, hblank, ?_⟩
  rw [comment?, comment?, hline, Text.trimStart_eq_self (Text.tight_trim line).head]
  exact afterStart?_append_blank (List.forall_mem_cons.2 ⟨rfl, List.forall_mem_singleton.2 rfl⟩)
    hblank

theorem scanLines_map_trim (b : Block) (lines : List (List Char)) :
    scanLines package file b (lines.map trim) = scanLines package file b lines := by
  induction lines generalizing b with
  | nil => rfl
  | cons line lines ih =>
    obtain ⟨blanks, hblank, hcomment⟩ := exists_comment?_eq line
    rw [List.map_cons, scanLines, scanLines, hcomment]
    cases comment? (trim line) with
    | none => simp only [Option.map_none, ih]
    | some comment => simp only [Option.map_some, ih, b.note_append_blank hblank]

theorem packageOf_map_trim (packageHint : String) (lines : List (List Char)) :
    packageOf packageHint (lines.map trim) = packageOf packageHint lines := by
  have htrim : ∀ line, trim (trim line) = trim line := fun line => (Text.tight_trim line).trim_eq
  have hdeclares : declaresPackage ∘ trim = declaresPackage := by
    funext line
    rw [Function.comp_apply, declaresPackage, htrim, ← declaresPackage]
  rw [packageOf, List.find?_map, hdeclares, packageOf]
  cases lines.find? declaresPackage with
  | none => rfl
  | some line => simp only [Option.map_some, packageWord, htrim]

/-! ## Pieces between newlines -/

theorem trim_dropReturn (piece : List Char) : trim (Text.dropReturn piece) = trim piece := by
  rw [Text.dropReturn]
  split
  · next hlast =>
    have hreturn : Blank ['\r'] := Text.blank_singleton rfl
    rw [← Text.trim_append_blank piece.dropLast hreturn, List.dropLast_append_getLast? _ hlast]
  · rfl

/-- The trimmed pieces are the trimmed lines, with an empty one at the end where the last piece is
no line. -/
theorem map_trim_pieces (pieces : List (List Char)) :
    pieces.map trim = (Text.linesOfPieces pieces).map trim ∨
      pieces.map trim = (Text.linesOfPieces pieces).map trim ++ [[]] := by
  fun_induction Text.linesOfPieces pieces with
  | case1 => exact .inl rfl
  | case2 => exact .inr rfl
  | case3 => exact .inl rfl
  | case4 piece pieces _ ih =>
    rw [List.map_cons, List.map_cons, trim_dropReturn, List.cons_append]
    exact ih.imp (congrArg _) (congrArg _)

theorem scanLines_append_empty (b : Block) (lines : List (List Char)) :
    scanLines package file b (lines ++ [[]]) = scanLines package file b lines := by
  induction lines generalizing b with
  | nil => exact List.append_nil (b.routes package file)
  | cons line lines ih =>
    rw [List.cons_append, scanLines, scanLines]
    cases comment? line with
    | none => simp only [ih]
    | some comment => simp only [ih]

theorem packageOf_append_empty (packageHint : String) (lines : List (List Char)) :
    packageOf packageHint (lines ++ [[]]) = packageOf packageHint lines := by
  have hempty : [[]].find? declaresPackage = none := by decide
  rw [packageOf, List.find?_append, hempty, Option.or_none, ← packageOf]

def trimmedPieces (text : String) : List (List Char) := (text.toList.splitOn '\n').map trim

theorem scan_eq_scanLines_trimmed (packageHint file text : String) :
    scan packageHint file text =
      scanLines (packageOf packageHint (trimmedPieces text)) file {} (trimmedPieces text) := by
  rw [scan_eq_scanLines, ← scanLines_map_trim, ← packageOf_map_trim, Text.lines, trimmedPieces]
  rcases map_trim_pieces (text.toList.splitOn '\n') with h | h
  · rw [h]
  · rw [h, scanLines_append_empty, packageOf_append_empty]

/-! ## Carriage returns -/

/-- A carriage return is put before every newline. -/
def withReturns (s : List Char) : List Char :=
  s.flatMap fun c => if c = '\n' then ['\r', '\n'] else [c]

theorem forall₂_splitOn_withReturns (s : List Char) :
    List.Forall₂ (fun piece piece' => piece' = piece ∨ piece' = piece ++ ['\r'])
      (s.splitOn '\n') ((withReturns s).splitOn '\n') := by
  induction s with
  | nil => exact .cons (.inl rfl) .nil
  | cons c s ih =>
    rw [withReturns, List.flatMap_cons, ← withReturns]
    by_cases hc : c = '\n'
    · subst hc
      have hleft : ('\n' :: s).splitOn '\n' = [] :: s.splitOn '\n' :=
        List.splitOn_append_cons_self_of_not_mem List.not_mem_nil s
      have hright : ('\r' :: '\n' :: withReturns s).splitOn '\n' =
          ['\r'] :: (withReturns s).splitOn '\n' :=
        List.splitOn_append_cons_self_of_not_mem (show '\n' ∉ ['\r'] by decide) (withReturns s)
      rw [if_pos rfl, hleft, List.cons_append, List.singleton_append, hright]
      exact .cons (.inr rfl) ih
    · have hnot : ¬ (c == '\n') = true := by simpa using hc
      obtain ⟨first, rest, hs⟩ := List.exists_cons_of_ne_nil (List.splitOn_ne_nil '\n' s)
      obtain ⟨first', rest', hs'⟩ :=
        List.exists_cons_of_ne_nil (List.splitOn_ne_nil '\n' (withReturns s))
      rw [hs, hs', List.forall₂_cons] at ih
      obtain ⟨hfirst, hrest⟩ := ih
      rw [if_neg hc, List.singleton_append, List.splitOn_cons_eq_if_modifyHead, if_neg hnot,
        List.splitOn_cons_eq_if_modifyHead, if_neg hnot, hs, hs']
      exact .cons (hfirst.imp (congrArg (c :: ·)) (congrArg (c :: ·))) hrest

theorem trimmedPieces_withReturns (text : String) :
    trimmedPieces (String.ofList (withReturns text.toList)) = trimmedPieces text := by
  have hreturn : Blank ['\r'] := Text.blank_singleton rfl
  rw [trimmedPieces, trimmedPieces, String.toList_ofList, eq_comm, ← List.forall₂_eq_eq_eq,
    List.forall₂_map_left_iff, List.forall₂_map_right_iff]
  refine (forall₂_splitOn_withReturns text.toList).imp fun piece piece' h => ?_
  rcases h with rfl | rfl
  · rfl
  · exact (Text.trim_append_blank piece hreturn).symm

/-- Texts that differ only in the blanks around the pieces between their newlines hold the same
routes, and so does a text whose lines are made to end with a carriage return and a newline. -/
theorem scan_ignores_spacing (packageHint file : String) :
    (∀ text text' : String, trimmedPieces text = trimmedPieces text' →
      scan packageHint file text = scan packageHint file text') ∧
    ∀ text : String, scan packageHint file (String.ofList (withReturns text.toList)) =
      scan packageHint file text := by
  have hsame : ∀ text text' : String, trimmedPieces text = trimmedPieces text' →
      scan packageHint file text = scan packageHint file text' := by
    intro text text' h
    rw [scan_eq_scanLines_trimmed, h, ← scan_eq_scanLines_trimmed]
  exact ⟨hsame, fun text => hsame _ _ (trimmedPieces_withReturns text)⟩

/-- A tag that ends its line is also one before blanks; the other lines are indented and ended in
another way, and there are blanks behind the last newline. -/
theorem scan_ignores_spacing_around_tags :
    let text := "package p\n// @AuthRoles\n// @Router /a [get]\n\nfunc f()\n"
    let text' := " package p\r\n\t// @AuthRoles \u3000\r\n  // @Router /a [get]\t\n\r\nfunc f()\n  "
    trimmedPieces text = trimmedPieces text' ∧
      scan "" "a.go" text = [{ routerLine := "/a [get]", package := "p", file := "a.go" }] ∧
      scan "" "a.go" text' = scan "" "a.go" text := by
  intro text text'
  have hpieces : trimmedPieces text = trimmedPieces text' := by decide +kernel
  refine ⟨hpieces, by decide +kernel, ?_⟩
  exact ((scan_ignores_spacing "" "a.go").1 text text' hpieces).symm

end RoutePolicy.Source
