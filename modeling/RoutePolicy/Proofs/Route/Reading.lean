import RoutePolicy.Proofs.Route.RouterLine
import RoutePolicy.Proofs.Text.Place

/-!
# Readings of a router line

A reading cuts a text into a path, a gap and a method in brackets, with anything before and behind
them. No path character can stand in a gap and none of a method can be a bracket, so a place in a
text has one reading at most (`Reading.eq_of_before_eq`). The search stops at the first place that
has one: a place it has passed has none, however far it could be read there.
-/

namespace RoutePolicy.RouterLine

open Text (FirstPlace)

/-- A text cut into the parts of a router line. -/
structure Reading (s : List Char) where
  before : List Char
  /-- The path behind its first slash. -/
  tail : List Char
  gap : List Char
  method : List Char
  after : List Char
  text : before ++ ('/' :: (tail ++ (gap ++ '[' :: (method ++ ']' :: after)))) = s
  tail_chars : ∀ c ∈ tail, isPathChar c = true
  gap_ne_nil : gap ≠ []
  gap_chars : ∀ c ∈ gap, isGap c = true
  method_ne_nil : method ≠ []
  method_chars : ∀ c ∈ method, isWordChar c = true

variable {s t before : List Char}

namespace Reading

def path (r : Reading s) : List Char := '/' :: r.tail

def rest (r : Reading s) : List Char :=
  '/' :: (r.tail ++ (r.gap ++ '[' :: (r.method ++ ']' :: r.after)))

def line (r : Reading s) : RouterLine := ⟨r.path, r.method⟩

/-- No reading of the text has a shorter part before its path. -/
def IsLeftmost (r : Reading s) : Prop := ∀ other : Reading s, r.before.length ≤ other.before.length

theorem before_append_rest (r : Reading s) : r.before ++ r.rest = s := r.text

theorem readHere?_rest (r : Reading s) : readHere? r.rest = some r.line :=
  readHere?_append r.tail_chars r.gap_ne_nil r.gap_chars r.method_ne_nil r.method_chars

theorem takeWhile_gap (r : Reading s) :
    (r.gap ++ '[' :: (r.method ++ ']' :: r.after)).takeWhile isGap = r.gap := by
  rw [List.takeWhile_append_of_pos r.gap_chars, List.takeWhile_cons_of_neg (by decide),
    List.append_nil]

/-- The parts of a reading are settled by the place of its path. -/
theorem eq_of_before_eq {r r' : Reading s} (h : r.before = r'.before) : r = r' := by
  have hboth : r.before ++ r.rest = r.before ++ r'.rest := by
    rw [before_append_rest, h, before_append_rest]
  have hrest : r.rest = r'.rest := List.append_cancel_left hboth
  have hline : r.line = r'.line :=
    Option.some.inj (r.readHere?_rest.symm.trans (hrest ▸ r'.readHere?_rest))
  obtain ⟨hpath, hmethod⟩ := RouterLine.mk.inj hline
  have htail : r.tail = r'.tail := (List.cons.inj hpath).2
  -- path and method are cut off both texts; the gap is what stands up to the bracket
  have hgaprest : r.gap ++ '[' :: (r.method ++ ']' :: r.after) =
      r'.gap ++ '[' :: (r'.method ++ ']' :: r'.after) := by
    have hbehind := (List.cons.inj hrest).2
    rw [htail] at hbehind
    exact List.append_cancel_left hbehind
  have hgap : r.gap = r'.gap := by rw [← r.takeWhile_gap, hgaprest, r'.takeWhile_gap]
  have hafter : r.after = r'.after := by
    rw [hgap, hmethod] at hgaprest
    have hmethodrest := (List.cons.inj (List.append_cancel_left hgaprest)).2
    exact (List.cons.inj (List.append_cancel_left hmethodrest)).2
  cases r
  cases r'
  rw [Reading.mk.injEq]
  exact ⟨h, htail, hgap, hmethod, hafter⟩

end Reading

/-! ## What can be read at a place -/

variable {line : RouterLine}

theorem exists_of_readMethod? {method : List Char} (h : readMethod? s = some method) :
    ∃ after, s = '[' :: (method ++ ']' :: after) ∧ method ≠ [] ∧
      ∀ c ∈ method, isWordChar c = true := by
  unfold readMethod? at h
  split at h
  · next s =>
    split at h
    · next c word after htake hdrop =>
      obtain rfl := Option.some.inj h
      refine ⟨after, ?_, List.cons_ne_nil c word, ?_⟩
      · rw [← htake, ← hdrop, List.takeWhile_append_dropWhile]
      · rw [← htake]
        exact List.all_eq_true.1 List.all_takeWhile
    · cases h
  · cases h

theorem exists_reading_of_readHere? (htext : before ++ t = s) (h : readHere? t = some line) :
    ∃ r : Reading s, r.before = before ∧ r.rest = t ∧ r.line = line := by
  unfold readHere? at h
  split at h
  · next u =>
    split at h
    · next c rest hdrop =>
      split at h
      · next hc =>
        obtain ⟨method, hmethod, rfl⟩ := Option.map_eq_some_iff.1 h
        obtain ⟨after, hrest, hne, hword⟩ := exists_of_readMethod? hmethod
        have hparts : '/' :: (u.takeWhile isPathChar ++
            (c :: rest.takeWhile isGap ++ '[' :: (method ++ ']' :: after))) = '/' :: u := by
          rw [← hrest, List.cons_append, List.takeWhile_append_dropWhile, ← hdrop,
            List.takeWhile_append_dropWhile]
        exact ⟨{
          before := before
          tail := u.takeWhile isPathChar
          gap := c :: rest.takeWhile isGap
          method := method
          after := after
          text := by rw [hparts, htext]
          tail_chars := List.all_eq_true.1 List.all_takeWhile
          gap_ne_nil := List.cons_ne_nil _ _
          gap_chars := List.forall_mem_cons.2 ⟨hc, List.all_eq_true.1 List.all_takeWhile⟩
          method_ne_nil := hne
          method_chars := hword }, rfl, hparts, rfl⟩
      · cases h
    · cases h
  · cases h

/-! ## The search -/

/-- A line can be read at a place with this text behind it. -/
def Readable (_before rest : List Char) : Prop := (readHere? rest).isSome = true

theorem Reading.readable (r : Reading s) : Readable r.before r.rest := by
  rw [Readable, r.readHere?_rest]
  rfl

theorem Readable.exists_reading (h : Readable before t) (htext : before ++ t = s) :
    ∃ r : Reading s, r.before = before ∧ r.rest = t := by
  obtain ⟨line, hline⟩ := Option.isSome_iff_exists.1 h
  obtain ⟨r, hbefore, hrest, -⟩ := exists_reading_of_readHere? htext hline
  exact ⟨r, hbefore, hrest⟩

theorem Reading.isLeftmost_iff {r : Reading s} :
    r.IsLeftmost ↔ FirstPlace Readable s r.before r.rest := by
  constructor
  · intro h
    refine ⟨r.before_append_rest, r.readable, fun before' rest' htext hreadable => ?_⟩
    obtain ⟨other, hbefore, -⟩ := hreadable.exists_reading htext
    exact hbefore ▸ h other
  · intro h other
    exact h.first other.before other.rest other.before_append_rest other.readable

theorem find?_eq_some_iff_firstPlace :
    find? s = some line ↔
      ∃ before rest, FirstPlace Readable s before rest ∧ readHere? rest = some line := by
  induction s with
  | nil =>
    refine iff_of_false (by simp [find?]) ?_
    rintro ⟨before, rest, hfirst, hread⟩
    obtain ⟨-, rfl⟩ := List.append_eq_nil_iff.1 hfirst.text
    cases hread
  | cons c s ih =>
    rw [find?]
    cases hstart : readHere? (c :: s) with
    | some here =>
      have hreadable : Readable [] (c :: s) := by rw [Readable, hstart]; rfl
      rw [Text.exists_firstPlace_of_start hreadable, hstart, Option.some_or]
    | none =>
      have hnot : ¬ Readable [] (c :: s) := by rw [Readable, hstart]; exact Bool.noConfusion
      rw [Option.none_or, ih, Text.exists_firstPlace_cons hnot]
      rfl

/-- The search takes the leftmost reading. -/
theorem find?_eq_some_iff : find? s = some line ↔ ∃ r : Reading s, r.IsLeftmost ∧ r.line = line := by
  rw [find?_eq_some_iff_firstPlace]
  constructor
  · rintro ⟨before, rest, hfirst, hread⟩
    obtain ⟨r, rfl, rfl, hline⟩ := exists_reading_of_readHere? hfirst.text hread
    exact ⟨r, Reading.isLeftmost_iff.2 hfirst, hline⟩
  · rintro ⟨r, hleftmost, rfl⟩
    exact ⟨r.before, r.rest, Reading.isLeftmost_iff.1 hleftmost, r.readHere?_rest⟩

theorem existsUnique_isLeftmost (r : Reading s) : ∃! r : Reading s, r.IsLeftmost := by
  obtain ⟨before, rest, hfirst⟩ := Text.exists_firstPlace r.before_append_rest r.readable
  obtain ⟨leftmost, rfl, rfl⟩ := hfirst.isKind.exists_reading hfirst.text
  refine ⟨leftmost, Reading.isLeftmost_iff.2 hfirst, fun other hother => ?_⟩
  exact Reading.eq_of_before_eq ((Reading.isLeftmost_iff.1 hother).unique hfirst).1

theorem find?_eq_none_iff : find? s = none ↔ IsEmpty (Reading s) := by
  constructor
  · intro hnone
    refine ⟨fun r => ?_⟩
    obtain ⟨leftmost, hleftmost, -⟩ := existsUnique_isLeftmost r
    cases hnone.symm.trans (find?_eq_some_iff.2 ⟨leftmost, hleftmost, rfl⟩)
  · intro hempty
    rw [Option.eq_none_iff_forall_ne_some]
    intro line hline
    obtain ⟨r, -, -⟩ := find?_eq_some_iff.1 hline
    exact hempty.false r

end RoutePolicy.RouterLine
