import Mathlib.Data.Char
import Mathlib.Data.List.Basic
import RoutePolicy.Proofs.Text.ByteOrder

/-!
# All places of a word

A word is searched for from left to right, and the search goes on behind a place that it has found.
So no two places overlap, and a place that begins inside the one before is never looked at. For a
word whose first character stands nowhere else in it there is no such place, and the search comes to
every place of the word (`mem_occurrences_iff`).

The bytes of a text may be searched in place of its characters. No byte inside the encoding of a
character begins an encoding, so the search finds the same places and never cuts a character in two
(`occurrences_encoded`).
-/

namespace RoutePolicy.Text

variable {α : Type} {word front before behind rest s : List α} {c : α}

/-! ## Words that do not overlap with themselves -/

/-- The first character of the word stands nowhere else in it. -/
def Marked (word : List α) : Prop :=
  ∃ mark tail, word = mark :: tail ∧ mark ∉ tail

theorem Marked.ne_nil (h : Marked word) : word ≠ [] := by
  obtain ⟨mark, tail, rfl, -⟩ := h
  exact List.cons_ne_nil mark tail

/-- Behind a place at the start of a text there is no other place before the end of the word. -/
theorem Marked.exists_before_eq (h : Marked word)
    (htext : before ++ (word ++ behind) = word ++ rest) (hne : before ≠ []) :
    ∃ before', before = word ++ before' ∧ before' ++ (word ++ behind) = rest := by
  rcases List.append_eq_append_iff.1 htext with ⟨beyond, hword, hbeyond⟩ | ⟨before', hbefore, hrest⟩
  · -- the word goes on behind `before`, with a second mark unless nothing is left of it
    obtain ⟨mark, tail, rfl, hmark⟩ := h
    obtain ⟨c, front, rfl⟩ := List.exists_cons_of_ne_nil hne
    cases beyond with
    | nil => exact ⟨[], by rw [hword, List.append_nil, List.append_nil], hbeyond⟩
    | cons d beyond =>
      obtain ⟨rfl, htail⟩ := List.cons.inj hword
      obtain ⟨rfl, -⟩ := List.cons.inj hbeyond
      exact absurd (htail ▸ List.mem_append_right front List.mem_cons_self) hmark
  · exact ⟨before', hbefore, hrest.symm⟩

/-! ## The search -/

/-- A place, told by the texts before and behind it, seen from further to the left. -/
def moved (front : List α) (place : List α × List α) : List α × List α :=
  (front ++ place.1, place.2)

theorem map_moved_nil (places : List (List α × List α)) : places.map (moved []) = places :=
  List.map_id places

theorem map_moved_cons (c : α) (front : List α) (places : List (List α × List α)) :
    (places.map (moved front)).map (moved [c]) = places.map (moved (c :: front)) :=
  List.map_map

theorem drop_eq_of_append_eq (hne : word ≠ []) (htext : word ++ rest = c :: s) :
    s.drop (word.length - 1) = rest := by
  obtain ⟨mark, tail, rfl⟩ := List.exists_cons_of_ne_nil hne
  obtain ⟨rfl, rfl⟩ := List.cons.inj htext
  exact List.drop_left

variable [DecidableEq α]

/-- The places of a word that is not empty, from left to right, no two of which overlap. -/
def occurrences (word : List α) : List α → List (List α × List α)
  | [] => []
  | c :: s =>
    if word <+: c :: s then
      ([], s.drop (word.length - 1)) ::
        (occurrences word (s.drop (word.length - 1))).map (moved word)
    else (occurrences word s).map (moved [c])
termination_by s => s.length
decreasing_by
  · rw [List.length_drop, List.length_cons]
    omega
  · rw [List.length_cons]
    omega

@[simp] theorem occurrences_nil (word : List α) : occurrences word [] = [] := by
  rw [occurrences]

theorem occurrences_place (hne : word ≠ []) (rest : List α) :
    occurrences word (word ++ rest) = ([], rest) :: (occurrences word rest).map (moved word) := by
  obtain ⟨c, s, htext⟩ :=
    List.exists_cons_of_ne_nil (List.append_ne_nil_of_left_ne_nil hne rest)
  rw [htext, occurrences, if_pos ⟨rest, htext⟩, drop_eq_of_append_eq hne htext]

theorem occurrences_other (h : ¬ word <+: c :: s) :
    occurrences word (c :: s) = (occurrences word s).map (moved [c]) := by
  rw [occurrences, if_neg h]

/-- The search finds nothing in a front in which no place begins. -/
theorem occurrences_append (h : ∀ rest, rest <:+ front → rest ≠ [] → ¬ word <+: rest ++ s) :
    occurrences word (front ++ s) = (occurrences word s).map (moved front) := by
  induction front with
  | nil => exact (map_moved_nil _).symm
  | cons c front ih =>
    have hstart : ¬ word <+: c :: (front ++ s) :=
      h (c :: front) List.suffix_rfl (List.cons_ne_nil c front)
    have hfront : ∀ rest, rest <:+ front → rest ≠ [] → ¬ word <+: rest ++ s := fun rest hrest =>
      h rest (hrest.trans (List.suffix_cons c front))
    rw [List.cons_append, occurrences_other hstart, ih hfront, map_moved_cons]

/-- The steps of a search: over a place of the word, or over one character at which none begins. -/
theorem search_induction {motive : List α → Prop} (hne : word ≠ []) (nil : motive [])
    (place : ∀ rest, motive rest → motive (word ++ rest))
    (other : ∀ c s, ¬ word <+: c :: s → motive s → motive (c :: s)) (s : List α) : motive s := by
  induction s using occurrences.induct word with
  | case1 => exact nil
  | case2 c s hprefix ih =>
    obtain ⟨rest, htext⟩ := hprefix
    rw [drop_eq_of_append_eq hne htext] at ih
    rw [← htext]
    exact place rest ih
  | case3 c s hnot ih => exact other c s hnot ih

theorem eq_of_mem_occurrences (hne : word ≠ []) (h : (before, behind) ∈ occurrences word s) :
    before ++ (word ++ behind) = s := by
  induction s using search_induction hne generalizing before with
  | nil =>
    rw [occurrences_nil] at h
    exact absurd h List.not_mem_nil
  | place rest ih =>
    rw [occurrences_place hne, List.mem_cons] at h
    rcases h with h | h
    · obtain ⟨rfl, rfl⟩ := Prod.mk.inj h
      rfl
    · obtain ⟨⟨before', behind'⟩, hmem, hmoved⟩ := List.mem_map.1 h
      obtain ⟨rfl, rfl⟩ := Prod.mk.inj hmoved
      rw [List.append_assoc, ih hmem]
  | other c s hnot ih =>
    rw [occurrences_other hnot] at h
    obtain ⟨⟨before', behind'⟩, hmem, hmoved⟩ := List.mem_map.1 h
    obtain ⟨rfl, rfl⟩ := Prod.mk.inj hmoved
    rw [List.append_assoc, ih hmem, List.singleton_append]

/-- A place begins where the one before has ended or later. -/
theorem pairwise_occurrences (hne : word ≠ []) (s : List α) :
    (occurrences word s).Pairwise fun p q => p.1.length + word.length ≤ q.1.length := by
  have hmoved : ∀ front : List α, ∀ {places : List (List α × List α)},
      places.Pairwise (fun p q => p.1.length + word.length ≤ q.1.length) →
        (places.map (moved front)).Pairwise fun p q => p.1.length + word.length ≤ q.1.length := by
    intro front places h
    refine List.pairwise_map.2 (h.imp fun {p q} hpq => ?_)
    simp only [moved, List.length_append]
    omega
  induction s using search_induction hne with
  | nil =>
    rw [occurrences_nil]
    exact List.Pairwise.nil
  | place rest ih =>
    rw [occurrences_place hne, List.pairwise_cons]
    refine ⟨fun q hq => ?_, hmoved word ih⟩
    obtain ⟨place, -, rfl⟩ := List.mem_map.1 hq
    simp only [moved, List.length_append, List.length_nil]
    omega
  | other c s hnot ih =>
    rw [occurrences_other hnot]
    exact hmoved [c] ih

theorem length_lt_of_occurrences_eq {passed later : List (List α × List α)} (hne : word ≠ [])
    (h : occurrences word s = passed ++ (before, behind) :: later) :
    (∀ place ∈ passed, place.1.length < before.length) ∧
      ∀ place ∈ later, before.length < place.1.length := by
  have hword : 0 < word.length := List.length_pos_of_ne_nil hne
  have hpairs := pairwise_occurrences hne s
  rw [h, List.pairwise_append, List.pairwise_cons] at hpairs
  obtain ⟨-, ⟨hlater, -⟩, hpassed⟩ := hpairs
  refine ⟨fun place hplace => ?_, fun place hplace => ?_⟩
  · have hend : place.1.length + word.length ≤ before.length :=
      hpassed place hplace (before, behind) List.mem_cons_self
    omega
  · have hend : before.length + word.length ≤ place.1.length := hlater place hplace
    omega

/-- The search misses no place. -/
theorem mem_occurrences_iff (h : Marked word) :
    (before, behind) ∈ occurrences word s ↔ before ++ (word ++ behind) = s := by
  refine ⟨eq_of_mem_occurrences h.ne_nil, fun htext => ?_⟩
  induction s using search_induction h.ne_nil generalizing before with
  | nil =>
    have hword : word = [] :=
      (List.append_eq_nil_iff.1 (List.append_eq_nil_iff.1 htext).2).1
    exact absurd hword h.ne_nil
  | place rest ih =>
    rw [occurrences_place h.ne_nil]
    by_cases hbefore : before = []
    · rw [hbefore, List.nil_append] at htext
      rw [hbefore, List.append_cancel_left htext]
      exact List.mem_cons_self
    · obtain ⟨before', rfl, hrest⟩ := h.exists_before_eq htext hbefore
      exact List.mem_cons_of_mem _ (List.mem_map.2 ⟨(before', behind), ih hrest, rfl⟩)
  | other c s hnot ih =>
    rw [occurrences_other hnot]
    cases before with
    | nil => exact absurd ⟨behind, htext⟩ hnot
    | cons d before =>
      obtain ⟨rfl, hs⟩ := List.cons.inj htext
      exact List.mem_map.2 ⟨(before, behind), ih hs, rfl⟩

/-! ## Bytes -/

def encoded (s : List Char) : List UInt8 := bytesOf (String.ofList s)

theorem encoded_eq (s : List Char) : encoded s = s.flatMap String.utf8EncodeChar := by
  rw [encoded, bytesOf_eq, String.toList_ofList]

theorem encoded_cons (c : Char) (s : List Char) :
    encoded (c :: s) = String.utf8EncodeChar c ++ encoded s := by
  rw [encoded_eq, encoded_eq, List.flatMap_cons]

theorem encoded_ne_nil {s : List Char} (hne : s ≠ []) : encoded s ≠ [] := by
  obtain ⟨c, s, rfl⟩ := List.exists_cons_of_ne_nil hne
  rw [encoded_cons]
  exact List.append_ne_nil_of_left_ne_nil String.utf8EncodeChar_ne_nil _

theorem encoded_append (s t : List Char) : encoded (s ++ t) = encoded s ++ encoded t := by
  rw [encoded_eq, encoded_eq, encoded_eq, List.flatMap_append]

theorem encodeChar_append_inj {c d : Char} {xs ys : List UInt8}
    (h : String.utf8EncodeChar c ++ xs = String.utf8EncodeChar d ++ ys) : c = d ∧ xs = ys := by
  rcases lt_trichotomy c d with hlt | rfl | hlt
  · exact absurd (h ▸ (below_encodeChar hlt).append_lt xs ys) (List.lt_irrefl _)
  · exact ⟨rfl, List.append_cancel_left h⟩
  · exact absurd (h ▸ (below_encodeChar hlt).append_lt ys xs) (List.lt_irrefl _)

theorem prefix_of_encoded {word s : List Char} (h : encoded word <+: encoded s) :
    word <+: s := by
  induction word generalizing s with
  | nil => exact List.nil_prefix
  | cons w word ih =>
    obtain ⟨rest, hrest⟩ := h
    rw [encoded_cons, List.append_assoc] at hrest
    cases s with
    | nil =>
      have hnil : String.utf8EncodeChar w = [] := (List.append_eq_nil_iff.1 hrest).1
      exact absurd hnil String.utf8EncodeChar_ne_nil
    | cons c s =>
      rw [encoded_cons] at hrest
      obtain ⟨rfl, hword⟩ := encodeChar_append_inj hrest
      exact List.cons_prefix_cons.2 ⟨rfl, ih ⟨rest, hword⟩⟩

theorem toNat_of_mem_tail_encodeChar (c : Char) :
    ∀ b ∈ (String.utf8EncodeChar c).tail, 0x80 ≤ b.toNat ∧ b.toNat < 0xC0 := by
  have hbyte : ∀ n, 0x80 ≤ (UInt8.ofNat (n % 64 + 128)).toNat ∧
      (UInt8.ofNat (n % 64 + 128)).toNat < 0xC0 := by
    intro n
    rw [UInt8.toNat_ofNat', Nat.mod_eq_of_lt (by omega)]
    omega
  simp only [String.utf8EncodeChar]
  split_ifs <;>
    simp only [List.tail_cons, List.forall_mem_cons, List.not_mem_nil, false_imp_iff,
      implies_true, hbyte, and_self]

theorem toNat_of_head?_encodeChar {c : Char} {b : UInt8}
    (h : (String.utf8EncodeChar c).head? = some b) : b.toNat < 0x80 ∨ 0xC0 ≤ b.toNat := by
  simp only [String.utf8EncodeChar] at h
  split_ifs at h <;> rw [List.head?_cons, Option.some.injEq] at h <;>
    rw [← h, UInt8.toNat_ofNat'] <;> omega

/-- No byte inside the encoding of a character begins an encoding. -/
theorem head?_encodeChar_ne {c d : Char} {b : UInt8} (h : b ∈ (String.utf8EncodeChar d).tail) :
    (String.utf8EncodeChar c).head? ≠ some b := by
  intro hhead
  have htail := toNat_of_mem_tail_encodeChar d b h
  have hfirst := toNat_of_head?_encodeChar hhead
  omega

/-- A search through the bytes passes over a character at which no place begins. -/
theorem occurrences_encoded_other {word s : List Char} {c : Char} (hne : word ≠ [])
    (h : ¬ word <+: c :: s) :
    occurrences (encoded word) (encoded (c :: s)) =
      (occurrences (encoded word) (encoded s)).map (moved (String.utf8EncodeChar c)) := by
  rw [encoded_cons]
  refine occurrences_append fun rest hrest hrestne hprefix => ?_
  obtain ⟨front, hfront⟩ := hrest
  -- `front` holds the bytes of the character that lie before the place
  cases front with
  | nil =>
    rw [List.nil_append] at hfront
    rw [hfront, ← encoded_cons] at hprefix
    exact h (prefix_of_encoded hprefix)
  | cons b front =>
    obtain ⟨w, word, rfl⟩ := List.exists_cons_of_ne_nil hne
    obtain ⟨d, rest, rfl⟩ := List.exists_cons_of_ne_nil hrestne
    have htail : d ∈ (String.utf8EncodeChar c).tail := by
      rw [← hfront]
      exact List.mem_append_right front List.mem_cons_self
    have hhead : (String.utf8EncodeChar w).head? = some d := by
      obtain ⟨behind, hbehind⟩ := hprefix
      obtain ⟨first, more, hw⟩ := List.exists_cons_of_ne_nil (String.utf8EncodeChar_ne_nil (c := w))
      rw [encoded_cons, hw] at hbehind
      rw [hw, (List.cons.inj hbehind).1, List.head?_cons]
    exact head?_encodeChar_ne htail hhead

theorem map_encoded_moved (front : List Char) (places : List (List Char × List Char)) :
    (places.map (moved front)).map (Prod.map encoded encoded) =
      (places.map (Prod.map encoded encoded)).map (moved (encoded front)) := by
  rw [List.map_map, List.map_map]
  apply List.map_congr_left
  intro place _
  exact Prod.ext (encoded_append front place.1) rfl

/-- A search through the bytes finds the places that a search through the characters finds. -/
theorem occurrences_encoded {word : List Char} (hne : word ≠ []) (s : List Char) :
    occurrences (encoded word) (encoded s) =
      (occurrences word s).map (Prod.map encoded encoded) := by
  induction s using search_induction hne with
  | nil =>
    rw [occurrences_nil]
    exact occurrences_nil _
  | place rest ih =>
    rw [encoded_append, occurrences_place (encoded_ne_nil hne), ih, occurrences_place hne,
      List.map_cons, map_encoded_moved]
    rfl
  | other c s hnot ih =>
    have hchar : encoded [c] = String.utf8EncodeChar c := by
      rw [encoded_eq, List.flatMap_singleton]
    rw [occurrences_encoded_other hne hnot, ih, occurrences_other hnot, map_encoded_moved, hchar]

end RoutePolicy.Text
