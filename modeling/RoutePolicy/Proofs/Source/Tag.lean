import RoutePolicy.Proofs.Text.Pieces
import RoutePolicy.Proofs.Text.Place
import RoutePolicy.Source.Scan

/-!
# Tags as whole words

A tag stands in a comment as a whole word where the text before it is empty or ends with a blank and
the text behind it is empty or begins with one. The value of a tag is the trimmed text behind the
first such place, whatever longer words hold the tag before it; a comment without such a place has
no value for the tag.
-/

namespace RoutePolicy.Source

open Text (isBlank FirstPlace)

variable {word s before behind rest value : List Char} {fresh : Bool} {c : Char}

/-- Tells whether a word may begin behind this text; behind the empty text `fresh` tells it. -/
def endsBlank (fresh : Bool) (before : List Char) : Bool :=
  (before.getLast?.map isBlank).getD fresh

theorem endsBlank_cons (fresh : Bool) (c : Char) (before : List Char) :
    endsBlank fresh (c :: before) = endsBlank (isBlank c) before := by
  rw [endsBlank, endsBlank, List.getLast?_cons]
  cases before.getLast? with
  | none => rfl
  | some d => rfl

/-- A whole word begins at the place between `before` and `rest`. -/
def WordAt (word : List Char) (fresh : Bool) (before rest : List Char) : Prop :=
  endsBlank fresh before = true ∧ ∃ behind, word ++ behind = rest ∧ startsBlank behind = true

theorem wordAt_cons (word : List Char) (fresh : Bool) (c : Char) :
    (fun before => WordAt word fresh (c :: before)) = WordAt word (isBlank c) := by
  funext before rest
  rw [WordAt, WordAt, endsBlank_cons]

theorem WordAt.exists_behind (h : WordAt word fresh before rest) :
    ∃ behind, rest = word ++ behind := by
  obtain ⟨-, behind, hrest, -⟩ := h
  exact ⟨behind, hrest.symm⟩

theorem valueFrom?_of_wordAt (h : WordAt word fresh [] (word ++ behind)) (hne : word ≠ []) :
    valueFrom? word fresh (word ++ behind) = some (Text.trim behind) := by
  obtain ⟨hfresh, other, htext, hblank⟩ := h
  have hsame : other = behind := List.append_cancel_left htext
  subst hsame
  obtain ⟨c, tail, hword⟩ := List.exists_cons_of_ne_nil (List.append_ne_nil_of_left_ne_nil hne other)
  have hfresh : fresh = true := hfresh
  rw [hword, valueFrom?, if_pos hfresh, ← hword, Text.afterStart?_append]
  exact if_pos hblank

theorem valueFrom?_of_not_wordAt (h : ¬ WordAt word fresh [] (c :: s)) :
    valueFrom? word fresh (c :: s) = valueFrom? word (isBlank c) s := by
  rw [valueFrom?]
  cases fresh with
  | false => rfl
  | true =>
    rw [if_pos rfl]
    split
    · next rest hrest =>
      have hnot : ¬ startsBlank rest = true := fun hblank =>
        h ⟨rfl, rest, Text.afterStart?_eq_some_iff.1 hrest, hblank⟩
      rw [if_neg hnot]
    · rfl

/-- The search finds the first whole word. -/
theorem valueFrom?_eq_some_iff (hne : word ≠ []) :
    valueFrom? word fresh s = some value ↔
      ∃ before rest, FirstPlace (WordAt word fresh) s before rest ∧
        ∃ behind, word ++ behind = rest ∧ Text.trim behind = value := by
  -- `fresh` is all that is left of the text passed so far, and all that a place asks of it
  induction s generalizing fresh with
  | nil =>
    refine iff_of_false (by simp [valueFrom?]) ?_
    rintro ⟨before, rest, hfirst, behind, rfl, -⟩
    exact hne (List.append_eq_nil_iff.1 (List.append_eq_nil_iff.1 hfirst.text).2).1
  | cons c s ih =>
    by_cases hstart : WordAt word fresh [] (c :: s)
    · rw [Text.exists_firstPlace_of_start hstart]
      obtain ⟨behind, hword⟩ := hstart.exists_behind
      rw [hword] at hstart ⊢
      rw [valueFrom?_of_wordAt hstart hne, Option.some.injEq]
      simp only [List.append_cancel_left_eq, exists_eq_left]
    · rw [Text.exists_firstPlace_cons hstart, valueFrom?_of_not_wordAt hstart, ih, wordAt_cons]

theorem valueFrom?_eq_none_iff (hne : word ≠ []) :
    valueFrom? word fresh s = none ↔
      ∀ before rest, before ++ rest = s → ¬ WordAt word fresh before rest := by
  constructor
  · intro hnone before rest htext hword
    obtain ⟨before', rest', hfirst⟩ := Text.exists_firstPlace htext hword
    obtain ⟨behind, rfl⟩ := hfirst.isKind.exists_behind
    have hsome := (valueFrom?_eq_some_iff hne).2 ⟨before', _, hfirst, behind, rfl, rfl⟩
    cases hnone.symm.trans hsome
  · intro h
    rw [Option.eq_none_iff_forall_ne_some]
    intro value hvalue
    obtain ⟨before, rest, hfirst, -⟩ := (valueFrom?_eq_some_iff hne).1 hvalue
    exact h before rest hfirst.text hfirst.isKind

/-! ## Tags -/

/-- The tag stands in the comment as a whole word, between `before` and `behind`. -/
structure Tag.StandsIn (tag : Tag) (comment before behind : List Char) : Prop where
  text : before ++ (tag.word ++ behind) = comment
  before_blank : ∀ c, before.getLast? = some c → isBlank c = true
  behind_blank : ∀ c, behind.head? = some c → isBlank c = true

/-- No whole-word place of the tag comes earlier in the comment. -/
structure Tag.StandsFirstIn (tag : Tag) (comment before behind : List Char) : Prop
    extends tag.StandsIn comment before behind where
  first : ∀ before' behind', tag.StandsIn comment before' behind' → before.length ≤ before'.length

/-- The tag stands somewhere in the comment as a whole word. -/
def Tag.Occurs (tag : Tag) (comment : List Char) : Prop :=
  ∃ before behind, tag.StandsIn comment before behind

variable {tag : Tag} {comment : List Char}

theorem Tag.word_ne_nil (tag : Tag) : tag.word ≠ [] := by cases tag <;> decide

theorem endsBlank_true_iff :
    endsBlank true before = true ↔ ∀ c, before.getLast? = some c → isBlank c = true := by
  rw [endsBlank]
  cases before.getLast? with
  | none => simp
  | some c => simp

theorem startsBlank_iff :
    startsBlank behind = true ↔ ∀ c, behind.head? = some c → isBlank c = true := by
  cases behind with
  | nil => simp [startsBlank]
  | cons c behind => simp [startsBlank]

theorem Tag.standsIn_iff :
    tag.StandsIn comment before behind ↔
      before ++ (tag.word ++ behind) = comment ∧
        WordAt tag.word true before (tag.word ++ behind) := by
  constructor
  · rintro ⟨htext, hbefore, hbehind⟩
    exact ⟨htext, endsBlank_true_iff.2 hbefore, behind, rfl, startsBlank_iff.2 hbehind⟩
  · rintro ⟨htext, hbefore, other, hother, hbehind⟩
    rw [List.append_cancel_left hother] at hbehind
    exact ⟨htext, endsBlank_true_iff.1 hbefore, startsBlank_iff.1 hbehind⟩

theorem Tag.standsFirstIn_iff :
    tag.StandsFirstIn comment before behind ↔
      FirstPlace (WordAt tag.word true) comment before (tag.word ++ behind) := by
  constructor
  · rintro ⟨hstands, hfirst⟩
    obtain ⟨htext, hword⟩ := Tag.standsIn_iff.1 hstands
    refine ⟨htext, hword, fun before' rest' htext' hword' => ?_⟩
    obtain ⟨behind', rfl⟩ := hword'.exists_behind
    exact hfirst before' behind' (Tag.standsIn_iff.2 ⟨htext', hword'⟩)
  · rintro ⟨htext, hword, hfirst⟩
    refine ⟨Tag.standsIn_iff.2 ⟨htext, hword⟩, fun before' behind' hstands => ?_⟩
    obtain ⟨htext', hword'⟩ := Tag.standsIn_iff.1 hstands
    exact hfirst before' _ htext' hword'

theorem Tag.value?_eq_some_iff :
    tag.value? comment = some value ↔
      ∃ before behind, tag.StandsFirstIn comment before behind ∧ Text.trim behind = value := by
  simp only [Tag.value?, valueFrom?_eq_some_iff tag.word_ne_nil, Tag.standsFirstIn_iff]
  constructor
  · rintro ⟨before, _, hfirst, behind, rfl, hvalue⟩
    exact ⟨before, behind, hfirst, hvalue⟩
  · rintro ⟨before, behind, hfirst, hvalue⟩
    exact ⟨before, _, hfirst, behind, rfl, hvalue⟩

theorem Tag.value?_eq_none_iff : tag.value? comment = none ↔ ¬ tag.Occurs comment := by
  rw [Tag.value?, valueFrom?_eq_none_iff tag.word_ne_nil]
  constructor
  · rintro h ⟨before, behind, hstands⟩
    obtain ⟨htext, hword⟩ := Tag.standsIn_iff.1 hstands
    exact h before _ htext hword
  · intro h before rest htext hword
    obtain ⟨behind, rfl⟩ := hword.exists_behind
    exact h ⟨before, behind, Tag.standsIn_iff.2 ⟨htext, hword⟩⟩

end RoutePolicy.Source
