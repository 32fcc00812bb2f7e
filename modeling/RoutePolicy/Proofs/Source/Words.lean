import RoutePolicy.Proofs.Source.Spacing
import RoutePolicy.Proofs.Text.Occurrences

/-!
# The first whole word

A tag begins with a character that it has nowhere else, so a search that goes on behind each place
it finds comes to all places of the tag, those inside longer words included. It passes over these,
and the first place that is left is the first one at which the tag stands as a whole word. No tag
holds a blank, so words in front of a comment change nothing unless the tag is one of them.
-/

namespace RoutePolicy.Source

open Text (isBlank occurrences encoded)

variable {tag : Tag} {word comment before behind front s : List Char} {fresh : Bool}

/-! ## Places inside longer words -/

/-- A longer word runs into the place between `before` and `behind`. -/
def InLongerWord (before behind : List Char) : Prop :=
  (∃ c, before.getLast? = some c ∧ isBlank c = false) ∨
    ∃ c, behind.head? = some c ∧ isBlank c = false

theorem not_inLongerWord_iff :
    ¬ InLongerWord before behind ↔ (∀ c, before.getLast? = some c → isBlank c = true) ∧
      ∀ c, behind.head? = some c → isBlank c = true := by
  simp only [InLongerWord, not_or, not_exists, not_and, Bool.not_eq_false]

theorem Tag.marked_word (tag : Tag) : Text.Marked tag.word := by
  cases tag with
  | router => exact ⟨'@', "Router".toList, by decide⟩
  | authRoles => exact ⟨'@', "AuthRoles".toList, by decide⟩
  | forbiddenRoles => exact ⟨'@', "ForbiddenRoles".toList, by decide⟩

theorem Tag.standsIn_iff_mem :
    tag.StandsIn comment before behind ↔
      (before, behind) ∈ occurrences tag.word comment ∧ ¬ InLongerWord before behind := by
  rw [Text.mem_occurrences_iff tag.marked_word, not_inLongerWord_iff]
  exact ⟨fun h => ⟨h.text, h.before_blank, h.behind_blank⟩, fun h => ⟨h.1, h.2.1, h.2.2⟩⟩

/-- The first place as a whole word is the first one that the search does not pass over. -/
theorem Tag.standsFirstIn_iff_passed :
    tag.StandsFirstIn comment before behind ↔
      ∃ passed later, occurrences tag.word comment = passed ++ (before, behind) :: later ∧
        (∀ place ∈ passed, InLongerWord place.1 place.2) ∧ ¬ InLongerWord before behind := by
  refine ⟨fun h => ?_, fun ⟨passed, later, hplaces, hpassed, hnot⟩ => ?_⟩
  · obtain ⟨hmem, hnot⟩ := Tag.standsIn_iff_mem.1 h.toStandsIn
    obtain ⟨passed, later, hplaces⟩ := List.append_of_mem hmem
    refine ⟨passed, later, hplaces, fun place hplace => ?_, hnot⟩
    by_contra hstands
    have hmem' : place ∈ occurrences tag.word comment :=
      hplaces ▸ List.mem_append_left _ hplace
    have hfirst : before.length ≤ place.1.length :=
      h.first place.1 place.2 (Tag.standsIn_iff_mem.2 ⟨hmem', hstands⟩)
    have hpassed := (Text.length_lt_of_occurrences_eq tag.word_ne_nil hplaces).1 place hplace
    omega
  · have hmem : (before, behind) ∈ occurrences tag.word comment :=
      hplaces ▸ List.mem_append_right passed List.mem_cons_self
    refine ⟨Tag.standsIn_iff_mem.2 ⟨hmem, hnot⟩, fun before' behind' hstands => ?_⟩
    obtain ⟨hmem', hnot'⟩ := Tag.standsIn_iff_mem.1 hstands
    rw [hplaces, List.mem_append, List.mem_cons] at hmem'
    rcases hmem' with hmem' | hsame | hmem'
    · exact absurd (hpassed _ hmem') hnot'
    · exact (congrArg (fun place => place.1.length) hsame).ge
    · exact ((Text.length_lt_of_occurrences_eq tag.word_ne_nil hplaces).2 _ hmem').le

/-! ## Words in front of a comment -/

theorem endsBlank_of_ne_nil (fresh : Bool) (hne : before ≠ []) :
    endsBlank fresh before = isBlank (before.getLast hne) := by
  rw [endsBlank, List.getLast?_eq_some_getLast hne]
  rfl

/-- A whole word that begins in a front ending with a blank also ends there. -/
theorem wordAt_of_append (hword : ∀ c ∈ word, isBlank c = false) {c : Char}
    (hend : endsBlank fresh (c :: front) = true)
    (h : WordAt word fresh [] (c :: (front ++ s))) : WordAt word fresh [] (c :: front) := by
  obtain ⟨hfresh, behind, htext, hblank⟩ := h
  rw [← List.cons_append] at htext
  rcases List.append_eq_append_iff.1 htext with ⟨rest, hfront, hbehind⟩ | ⟨beyond, hbeyond, -⟩
  · refine ⟨hfresh, rest, hfront.symm, ?_⟩
    cases rest with
    | nil => rfl
    | cons d rest =>
      rw [hbehind] at hblank
      exact hblank
  · -- the blank at the end of the front would be a character of the word
    have hne : c :: front ≠ [] := List.cons_ne_nil c front
    have hlast : (c :: front).getLast hne ∈ word :=
      hbeyond ▸ List.mem_append_left beyond (List.getLast_mem hne)
    rw [endsBlank_of_ne_nil fresh hne, hword _ hlast] at hend
    exact absurd hend Bool.false_ne_true

theorem valueFrom?_append_front (hword : ∀ c ∈ word, isBlank c = false)
    (hend : endsBlank fresh front = true)
    (hfront : ∀ before rest, before ++ rest = front → ¬ WordAt word fresh before rest) :
    valueFrom? word fresh (front ++ s) = valueFrom? word true s := by
  -- `fresh` is what is left of the part of the front that was passed
  induction front generalizing fresh with
  | nil =>
    have hfresh : fresh = true := hend
    rw [List.nil_append, hfresh]
  | cons c front ih =>
    have hstart : ¬ WordAt word fresh [] (c :: (front ++ s)) := fun h =>
      hfront [] (c :: front) rfl (wordAt_of_append hword hend h)
    rw [List.cons_append, valueFrom?_of_not_wordAt hstart]
    apply ih
    · rw [← endsBlank_cons]
      exact hend
    · intro before rest htext hplace
      rw [← wordAt_cons word fresh c] at hplace
      exact hfront (c :: before) rest (congrArg (c :: ·) htext) hplace

theorem Tag.value?_append_front (hend : ∀ c, front.getLast? = some c → isBlank c = true)
    (hfront : ¬ tag.Occurs front) (comment : List Char) :
    tag.value? (front ++ comment) = tag.value? comment := by
  apply valueFrom?_append_front tag.isBlank_of_mem_word (endsBlank_true_iff.2 hend)
  exact (valueFrom?_eq_none_iff tag.word_ne_nil).1 (Tag.value?_eq_none_iff.2 hfront)

/-! ## The value of a tag -/

/-- A comment has a value for a tag if the tag stands in it as a whole word, and then the value is
the trimmed text behind the first such place. A search that goes on behind each place it finds
misses no place of the tag, comes to this one after places inside longer words only, and may as well
run through the bytes. Words in front, the tag not being one of them, leave the value as it is. -/
theorem Tag.value?_finds_first_word (tag : Tag) (comment : List Char) :
    ((∃ value, tag.value? comment = some value) ↔ tag.Occurs comment) ∧
      (∀ value, tag.value? comment = some value ↔
        ∃ before behind, tag.StandsFirstIn comment before behind ∧ Text.trim behind = value) ∧
      (∀ before behind, (before, behind) ∈ occurrences tag.word comment ↔
        before ++ (tag.word ++ behind) = comment) ∧
      (∀ before behind, tag.StandsFirstIn comment before behind ↔
        ∃ passed later, occurrences tag.word comment = passed ++ (before, behind) :: later ∧
          (∀ place ∈ passed, InLongerWord place.1 place.2) ∧ ¬ InLongerWord before behind) ∧
      occurrences (encoded tag.word) (encoded comment) =
        (occurrences tag.word comment).map (Prod.map encoded encoded) ∧
      ∀ front, (∀ c, front.getLast? = some c → isBlank c = true) → ¬ tag.Occurs front →
        tag.value? (front ++ comment) = tag.value? comment := by
  refine ⟨?_, fun value => Tag.value?_eq_some_iff,
    fun before behind => Text.mem_occurrences_iff tag.marked_word,
    fun before behind => Tag.standsFirstIn_iff_passed,
    Text.occurrences_encoded tag.word_ne_nil comment,
    fun front hend hfront => Tag.value?_append_front hend hfront comment⟩
  rw [← Option.ne_none_iff_exists', ne_eq, Tag.value?_eq_none_iff, not_not]

theorem Tag.value?_behind_longer_words :
    (∀ c, " @RouterGroup é@Router\u3000".toList.getLast? = some c → isBlank c = true) ∧
      ¬ Tag.router.Occurs " @RouterGroup é@Router\u3000".toList ∧
      Tag.router.value? (" @RouterGroup é@Router\u3000".toList ++ "@Router\u3000/a [get] ".toList) =
        some "/a [get]".toList := by
  have hend : ∀ c, " @RouterGroup é@Router\u3000".toList.getLast? = some c → isBlank c = true :=
    endsBlank_true_iff.1 (by decide)
  have hfront : ¬ Tag.router.Occurs " @RouterGroup é@Router\u3000".toList :=
    Tag.value?_eq_none_iff.1 (by decide)
  have hvalue : Tag.router.value? "@Router\u3000/a [get] ".toList = some "/a [get]".toList := by
    decide
  refine ⟨hend, hfront, ?_⟩
  rw [(Tag.value?_finds_first_word .router "@Router\u3000/a [get] ".toList).2.2.2.2.2 _ hend hfront,
    hvalue]

end RoutePolicy.Source
