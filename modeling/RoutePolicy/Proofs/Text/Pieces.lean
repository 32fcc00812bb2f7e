import Mathlib.Data.List.Basic
import RoutePolicy.Text.Pieces

/-!
# Laws of pieces

Joining with commas and cutting at commas undo each other as long as no part holds a comma itself.
For a list of parts that may be empty the parts have to be non-empty texts, because no parts at all
and one empty part are joined to the same text. Likewise a text in which a newline ends every line
has just these lines, as long as none of them holds a newline or ends with a carriage return.
-/

namespace RoutePolicy.Text

theorem not_mem_of_mem_splitOn {separator : Char} {s piece : List Char}
    (h : piece ∈ s.splitOn separator) : separator ∉ piece := by
  induction s generalizing piece with
  | nil =>
    rw [List.splitOn_nil, List.mem_singleton] at h
    rw [h]
    exact List.not_mem_nil
  | cons c s ih =>
    rw [List.splitOn_cons_eq_if_modifyHead] at h
    split at h
    · rcases List.mem_cons.1 h with rfl | h
      · exact List.not_mem_nil
      · exact ih h
    · next hc =>
      cases hs : s.splitOn separator with
      | nil => exact absurd hs (List.splitOn_ne_nil separator s)
      | cons first rest =>
        rw [hs] at h ih
        rcases List.mem_cons.1 h with rfl | h
        · intro hmem
          rcases List.mem_cons.1 hmem with rfl | hmem
          · exact hc (beq_self_eq_true _)
          · exact ih List.mem_cons_self hmem
        · exact ih (List.mem_cons_of_mem first h)

theorem intercalate_cons (separator part : List Char) (parts : List (List Char)) :
    separator.intercalate (part :: parts) = part ++ parts.flatMap (separator ++ ·) := by
  induction parts generalizing part with
  | nil => rw [List.intercalate_singleton, List.flatMap_nil, List.append_nil]
  | cons next parts ih =>
    rw [List.intercalate_cons_cons, ih, List.flatMap_cons, List.append_assoc, List.append_assoc]

/-- Joining adds separators and no other character. -/
theorem mem_intercalate {separator c : Char} {parts : List (List Char)} (h : c ≠ separator) :
    c ∈ [separator].intercalate parts ↔ ∃ part ∈ parts, c ∈ part := by
  cases parts with
  | nil => simp
  | cons part parts =>
    simp only [intercalate_cons, List.mem_append, List.mem_flatMap, List.mem_cons,
      List.not_mem_nil, or_false, h, false_or, exists_eq_or_imp]

/-- Cutting takes out separators and no other character. -/
theorem exists_mem_splitOn_iff {separator c : Char} {s : List Char} (h : c ≠ separator) :
    (∃ piece ∈ s.splitOn separator, c ∈ piece) ↔ c ∈ s := by
  rw [← mem_intercalate h, List.intercalate_splitOn]

theorem afterStart?_append (start rest : List Char) :
    afterStart? start (start ++ rest) = some rest := by
  rw [afterStart?, if_pos (List.isPrefixOf_iff_prefix.2 (List.prefix_append start rest)),
    List.drop_left]

theorem afterStart?_eq_some_iff {start s rest : List Char} :
    afterStart? start s = some rest ↔ start ++ rest = s := by
  constructor
  · intro h
    rw [afterStart?] at h
    split at h
    · next hprefix =>
      rw [← Option.some.inj h]
      exact (List.prefix_iff_eq_append.1 (List.isPrefixOf_iff_prefix.1 hprefix))
    · cases h
  · rintro rfl
    exact afterStart?_append start rest

/-! ## Comma lists -/

/-- A text that can stand among the parts of a comma list without being cut. -/
def CommaFree (s : String) : Prop := ',' ∉ s.toList

theorem toList_joinCommas (parts : List String) :
    (joinCommas parts).toList = [','].intercalate (parts.map String.toList) := by
  rw [joinCommas, String.toList_intercalate]
  rfl

theorem splitCommas_joinCommas {parts : List String} (hne : parts ≠ [])
    (free : ∀ part ∈ parts, CommaFree part) : splitCommas (joinCommas parts) = parts := by
  have hfree : ∀ piece ∈ parts.map String.toList, ',' ∉ piece := by
    intro piece hpiece
    obtain ⟨part, hpart, rfl⟩ := List.mem_map.1 hpiece
    exact free part hpart
  have hcut := List.splitOn_intercalate ',' hfree (by simpa using hne)
  rw [splitCommas, toList_joinCommas, hcut, List.map_map]
  simp [Function.comp_def]

theorem joinCommas_eq_empty {parts : List String} (h : joinCommas parts = "")
    (full : ∀ part ∈ parts, part ≠ "" ∧ CommaFree part) : parts = [] := by
  by_contra hne
  have hcut := splitCommas_joinCommas hne fun part hpart => (full part hpart).2
  rw [h] at hcut
  have hempty : "" ∈ parts := by
    rw [← hcut]
    decide
  exact (full "" hempty).1 rfl

theorem joinCommas_injective {left right : List String} (h : joinCommas left = joinCommas right)
    (hleft : ∀ part ∈ left, part ≠ "" ∧ CommaFree part)
    (hright : ∀ part ∈ right, part ≠ "" ∧ CommaFree part) : left = right := by
  by_cases hl : left = []
  · subst hl
    exact (joinCommas_eq_empty h.symm hright).symm
  · by_cases hr : right = []
    · subst hr
      exact joinCommas_eq_empty h hleft
    · rw [← splitCommas_joinCommas hl fun part hpart => (hleft part hpart).2, h]
      exact splitCommas_joinCommas hr fun part hpart => (hright part hpart).2

theorem mem_joinCommas {parts : List String} {c : Char} (h : c ∈ (joinCommas parts).toList) :
    c = ',' ∨ ∃ part ∈ parts, c ∈ part.toList := by
  rw [toList_joinCommas] at h
  by_cases hcomma : c = ','
  · exact Or.inl hcomma
  · obtain ⟨piece, hpiece, hc⟩ := (mem_intercalate hcomma).1 h
    obtain ⟨part, hpart, rfl⟩ := List.mem_map.1 hpiece
    exact Or.inr ⟨part, hpart, hc⟩

/-! ## Lines -/

variable {line s : List Char} {ls : List (List Char)}

/-- A text that a newline behind it makes a line. -/
structure OneLine (line : List Char) : Prop where
  newline : '\n' ∉ line
  last : line.getLast? ≠ some '\r'

/-- The text in which a newline ends every line. -/
def endLines (ls : List (List Char)) : List Char := ls.flatMap (· ++ ['\n'])

theorem lines_append_newline (h : '\n' ∉ line) :
    lines (line ++ '\n' :: s) = dropReturn line :: lines s := by
  rw [lines, List.splitOn_append_cons_self_of_not_mem h, lines]
  cases hs : s.splitOn '\n' with
  | nil => exact absurd hs (List.splitOn_ne_nil '\n' s)
  | cons piece pieces =>
    rw [linesOfPieces]
    simp

theorem not_mem_dropReturn {c : Char} (h : c ∉ line) : c ∉ dropReturn line := by
  rw [dropReturn]
  split
  · exact fun hmem => h ((List.dropLast_sublist line).mem hmem)
  · exact h

theorem not_mem_of_mem_linesOfPieces {c : Char} {pieces : List (List Char)}
    (hpieces : ∀ piece ∈ pieces, c ∉ piece) (h : line ∈ linesOfPieces pieces) : c ∉ line := by
  fun_induction linesOfPieces pieces with
  | case1 => exact absurd h List.not_mem_nil
  | case2 => exact absurd h List.not_mem_nil
  | case3 last _ =>
    rw [List.mem_singleton.1 h]
    exact hpieces last List.mem_cons_self
  | case4 piece pieces _ ih =>
    rcases List.mem_cons.1 h with rfl | h
    · exact not_mem_dropReturn (hpieces piece List.mem_cons_self)
    · exact ih (fun other hother => hpieces other (List.mem_cons_of_mem piece hother)) h

/-- A newline ends a line and stands in none. -/
theorem newline_not_mem_of_mem_lines (h : line ∈ lines s) : '\n' ∉ line :=
  not_mem_of_mem_linesOfPieces (fun _ => not_mem_of_mem_splitOn) h

theorem lines_endLines (h : ∀ line ∈ ls, OneLine line) : lines (endLines ls) = ls := by
  induction ls with
  | nil => rfl
  | cons line ls ih =>
    have hline : OneLine line := h line List.mem_cons_self
    have hls : lines (endLines ls) = ls :=
      ih fun other hother => h other (List.mem_cons_of_mem line hother)
    rw [endLines, List.flatMap_cons, List.append_assoc, List.singleton_append, ← endLines,
      lines_append_newline hline.newline, hls, dropReturn, if_neg hline.last]

end RoutePolicy.Text
