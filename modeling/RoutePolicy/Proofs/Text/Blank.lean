import Mathlib.Data.List.DropRight
import RoutePolicy.Text.Pieces

/-!
# Laws of trimming

A tight text has no blank at either end. Trimming always gives a tight text, keeps one as it is, and
does not see blanks that are put around a text.
-/

namespace RoutePolicy.Text

/-- No blank stands at either end. -/
structure Tight (s : List Char) : Prop where
  head : ∀ c, s.head? = some c → isBlank c = false
  last : ∀ c, s.getLast? = some c → isBlank c = false

def Blank (s : List Char) : Prop := ∀ c ∈ s, isBlank c = true

theorem blank_singleton {c : Char} (h : isBlank c = true) : Blank [c] :=
  List.forall_mem_singleton.2 h

theorem trimEnd_eq (s : List Char) : trimEnd s = s.rdropWhile isBlank := rfl

theorem prefix_trimEnd (s : List Char) : trimEnd s <+: s := List.rdropWhile_prefix isBlank s

theorem trim_sublist (s : List Char) : (trim s).Sublist s :=
  (prefix_trimEnd _).sublist.trans (List.dropWhile_sublist isBlank)

theorem mem_dropWhile_iff {p : Char → Bool} {s : List Char} {c : Char} (h : p c = false) :
    c ∈ s.dropWhile p ↔ c ∈ s := by
  refine ⟨fun hc => (List.dropWhile_sublist p).mem hc, fun hc => ?_⟩
  rw [← List.takeWhile_append_dropWhile (p := p) (l := s), List.mem_append] at hc
  refine hc.resolve_left fun htake => ?_
  exact absurd (h.symm.trans (List.all_eq_true.1 List.all_takeWhile c htake)) (by decide)

/-- Only blanks are trimmed. -/
theorem mem_trim_iff {s : List Char} {c : Char} (h : isBlank c = false) : c ∈ trim s ↔ c ∈ s := by
  rw [trim, trimEnd, dropEndWhile, List.mem_reverse, mem_dropWhile_iff h, List.mem_reverse, trimStart,
    mem_dropWhile_iff h]

theorem mem_of_mem_trim {s : List Char} {c : Char} (h : c ∈ trim s) : c ∈ s :=
  (trim_sublist s).mem h

theorem trimStart_eq_self {s : List Char} (h : ∀ c, s.head? = some c → isBlank c = false) :
    trimStart s = s := by
  cases s with
  | nil => rfl
  | cons c s =>
    have hc : ¬ isBlank c = true := by simp [h c rfl]
    exact List.dropWhile_cons_of_neg hc

theorem trimEnd_eq_self {s : List Char} (h : ∀ c, s.getLast? = some c → isBlank c = false) :
    trimEnd s = s := by
  rw [trimEnd_eq, List.rdropWhile_eq_self_iff]
  intro hne
  rw [h _ (List.getLast?_eq_some_getLast hne)]
  exact Bool.false_ne_true

theorem Tight.trim_eq {s : List Char} (h : Tight s) : trim s = s := by
  rw [trim, trimStart_eq_self h.head, trimEnd_eq_self h.last]

theorem Tight.of_forall {s : List Char} (h : ∀ c ∈ s, isBlank c = false) : Tight s :=
  ⟨fun c hc => h c (List.mem_of_head? hc), fun c hc => h c (List.mem_of_getLast? hc)⟩

theorem Tight.append {s middle t : List Char} (hs : Tight s) (ht : Tight t) (hsne : s ≠ [])
    (htne : t ≠ []) : Tight (s ++ (middle ++ t)) := by
  refine ⟨?_, ?_⟩
  · intro c hc
    rw [List.head?_append_of_ne_nil s hsne] at hc
    exact hs.head c hc
  · intro c hc
    rw [← List.append_assoc, List.getLast?_append_of_ne_nil _ htne] at hc
    exact ht.last c hc

theorem isBlank_of_head?_trimStart {s : List Char} {c : Char} (h : (trimStart s).head? = some c) :
    isBlank c = false := by
  have hnot := List.head?_dropWhile_not isBlank s
  rw [show s.dropWhile isBlank = trimStart s from rfl, h] at hnot
  simpa using hnot

theorem tight_trim (s : List Char) : Tight (trim s) := by
  constructor
  · intro c hc
    -- the first character is that of the text whose beginning was trimmed, of which this is a prefix
    have hhead : (trimStart s).head? = some c := by
      obtain ⟨rest, hrest⟩ := prefix_trimEnd (trimStart s)
      rw [← hrest, List.head?_append]
      exact Option.or_eq_some_iff.2 (Or.inl hc)
    exact isBlank_of_head?_trimStart hhead
  · intro c hc
    have hne : trim s ≠ [] := by
      intro h
      rw [h] at hc
      exact absurd hc (by simp)
    have hnot := List.rdropWhile_last_not isBlank (trimStart s) hne
    have hlast : (trim s).getLast hne = c :=
      Option.some.inj ((List.getLast?_eq_some_getLast hne).symm.trans hc)
    change ¬ isBlank ((trim s).getLast hne) = true at hnot
    rw [hlast] at hnot
    simpa using hnot

theorem trimStart_eq_nil_iff {s : List Char} : trimStart s = [] ↔ Blank s := List.dropWhile_eq_nil_iff

theorem trim_eq_nil_iff {s : List Char} : trim s = [] ↔ Blank s := by
  constructor
  · intro h
    have hblank : Blank (trimStart s) := List.rdropWhile_eq_nil_iff.1 h
    apply trimStart_eq_nil_iff.1
    cases hs : trimStart s with
    | nil => rfl
    | cons c rest =>
      have hhead : isBlank c = false := isBlank_of_head?_trimStart (by rw [hs]; rfl)
      have hc : isBlank c = true := hblank c (hs ▸ List.mem_cons_self)
      exact absurd (hc.symm.trans hhead) (by decide)
  · intro h
    rw [trim, trimStart_eq_nil_iff.2 h]
    rfl

/-- A text that is not blank has a first word, which is what follows the blanks at its start. -/
theorem firstWord?_of_not_blank {s : List Char} (h : ¬ Blank s) :
    firstWord? s = some ((trimStart s).takeWhile fun c => !isBlank c) := by
  rw [firstWord?]
  cases hs : trimStart s with
  | nil => exact absurd (trimStart_eq_nil_iff.1 hs) h
  | cons c rest =>
    have hhead : isBlank c = false := isBlank_of_head?_trimStart (by rw [hs]; rfl)
    rw [List.takeWhile_cons_of_pos (by rw [hhead]; rfl)]

theorem trim_blank_append {blanks : List Char} (s : List Char) (h : Blank blanks) :
    trim (blanks ++ s) = trim s := by
  rw [trim, trim, trimStart, trimStart, List.dropWhile_append_of_pos h]

theorem trim_append_blank {blanks : List Char} (s : List Char) (h : Blank blanks) :
    trim (s ++ blanks) = trim s := by
  have hend : ∀ t, trimEnd (t ++ blanks) = trimEnd t := by
    intro t
    have hreverse : ∀ c ∈ blanks.reverse, isBlank c = true := fun c hc =>
      h c (List.mem_reverse.1 hc)
    rw [trimEnd, dropEndWhile, List.reverse_append, List.dropWhile_append_of_pos hreverse,
      trimEnd, dropEndWhile]
  by_cases hblank : Blank s
  · have hboth : Blank (s ++ blanks) := List.forall_mem_append.2 ⟨hblank, h⟩
    rw [trim_eq_nil_iff.2 hblank, trim_eq_nil_iff.2 hboth]
  · have hne : trimStart s ≠ [] := trimStart_eq_nil_iff.not.2 hblank
    have hstart : trimStart (s ++ blanks) = trimStart s ++ blanks := by
      rw [trimStart, List.dropWhile_append]
      exact if_neg fun hempty => hne (List.isEmpty_iff.1 hempty)
    rw [trim, hstart, hend, ← trim]

/-- Trimming takes blanks off the end of what is left when those at the start are gone. -/
theorem exists_trimStart_eq_append (s : List Char) :
    ∃ blanks, Blank blanks ∧ trimStart s = trim s ++ blanks := by
  refine ⟨(trimStart s).rtakeWhile isBlank, fun c hc => List.mem_rtakeWhile_imp hc, ?_⟩
  rw [trim, trimEnd_eq, List.rdropWhile_append_rtakeWhile]

end RoutePolicy.Text
