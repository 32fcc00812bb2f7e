import RoutePolicy.Json.Text
import RoutePolicy.Proofs.Text.Read

/-!
# Spellings of texts

`SpellsText value content` lists the ways to write a text between quotes, and the reader accepts
these and no others (`textFrom_eq_ok_iff`). What `encode` writes is one of them. A text that is only
passed over may hold any code units, lone surrogates among them (`afterText_eq_ok_iff`).
-/

namespace RoutePolicy.Json

open Text (Read Delivers delivers_ok not_delivers_error delivers_of_eq delivers_map delivers_cons
  delivers_after)

variable {s rest : List Char}

/-! ## Escapes -/

theorem readHex4_iff {n : Nat} :
    Delivers (readHex4 s) n rest ↔
      ∃ a b c d, hexValue4? a b c d = some n ∧ s = a :: b :: c :: d :: rest := by
  constructor
  · rintro ⟨_, h⟩
    unfold readHex4 at h
    split at h
    · next a b c d _ _ =>
      split at h
      · next m hm =>
        obtain ⟨rfl, rfl⟩ := Read.mk.inj (Except.ok.inj h)
        exact ⟨a, b, c, d, hm, rfl⟩
      · cases h
    · cases h
  · rintro ⟨a, b, c, d, hn, rfl⟩
    refine ⟨?_, ?_⟩
    · simp only [List.length_cons]
      omega
    · rw [readHex4]
      split
      · next m hm =>
        obtain rfl := Option.some.inj (hm.symm.trans hn)
        rfl
      · next hm => cases hn.symm.trans hm

theorem readPairMark_iff : Delivers (readPairMark s) () rest ↔ s = '\\' :: 'u' :: rest := by
  constructor
  · rintro ⟨_, h⟩
    unfold readPairMark at h
    split at h
    · cases h
    · cases h
    · next s =>
      obtain ⟨_, rfl⟩ := Read.mk.inj (Except.ok.inj h)
      rfl
    · cases h
    · cases h
  · rintro rfl
    exact ⟨_, rfl⟩

/-- The character that a pair of surrogates stands for. -/
@[irreducible] def pairChar (high low : Nat) : Char :=
  Char.ofNat (0x10000 + (high - 0xD800) * 0x400 + (low - 0xDC00))

theorem pairChar_eq (high low : Nat) :
    pairChar high low = Char.ofNat (0x10000 + (high - 0xD800) * 0x400 + (low - 0xDC00)) := by
  unfold pairChar
  rfl

/-- The ways to write a character behind a backslash. -/
inductive SpellsEscape : Char → List Char → Prop
  | short {e c : Char} (h : shortEscape? e = some c) : SpellsEscape c [e]
  | code {a b c d : Char} {n : Nat} (h : hexValue4? a b c d = some n)
      (notLow : isLowSurrogate n = false) (notHigh : isHighSurrogate n = false) :
      SpellsEscape (Char.ofNat n) ['u', a, b, c, d]
  | pair {a b c d a' b' c' d' : Char} {high low : Nat} (h : hexValue4? a b c d = some high)
      (isHigh : isHighSurrogate high = true) (h' : hexValue4? a' b' c' d' = some low)
      (isLow : isLowSurrogate low = true) :
      SpellsEscape (pairChar high low) ['u', a, b, c, d, '\\', 'u', a', b', c', d']

theorem readLowSurrogate_iff {high : Nat} {e : Char} :
    Delivers (readLowSurrogate high s) e rest ↔
      ∃ a b c d low, hexValue4? a b c d = some low ∧ isLowSurrogate low = true ∧
        e = pairChar high low ∧ s = '\\' :: 'u' :: a :: b :: c :: d :: rest := by
  constructor
  · intro h
    unfold readLowSurrogate at h
    split at h
    · exact absurd h not_delivers_error
    · next mark hmark =>
      split at h
      · exact absurd h not_delivers_error
      · next low hlow =>
        split at h
        · next isLow =>
          obtain ⟨he, hrest⟩ := delivers_ok.1 h
          obtain ⟨a, b, c, d, hvalue, hlowRest⟩ := readHex4_iff.1 (delivers_of_eq hlow)
          refine ⟨a, b, c, d, low.value, hvalue, isLow, ?_, ?_⟩
          · simp only [Read.after, Read.map] at he
            rw [pairChar_eq, he]
          have hs := readPairMark_iff.1 (delivers_of_eq hmark)
          rw [hlowRest] at hs
          rw [← hrest]
          exact hs
        · exact absurd h not_delivers_error
  · rintro ⟨a, b, c, d, low, hvalue, isLow, he, rfl⟩
    subst he
    obtain ⟨_, hmark⟩ := readPairMark_iff.2 (rfl : '\\' :: 'u' :: a :: b :: c :: d :: rest = _)
    obtain ⟨_, hlow⟩ := readHex4_iff.2 ⟨a, b, c, d, hvalue, (rfl : a :: b :: c :: d :: rest = _)⟩
    rw [readLowSurrogate, hmark]
    simp only [hlow, isLow, if_true, delivers_ok, Read.after, Read.map, pairChar_eq, and_self]

theorem isLowSurrogate_eq_false {high : Nat} (h : isHighSurrogate high = true) :
    isLowSurrogate high = false := by
  simp only [isHighSurrogate, isLowSurrogate, Bool.and_eq_true, decide_eq_true_eq,
    Bool.and_eq_false_iff, decide_eq_false_iff_not] at h ⊢
  omega

theorem exists_of_readUnits {e : Char} (h : Delivers (readUnits s) e rest) :
    ∃ piece, SpellsEscape e ('u' :: piece) ∧ s = piece ++ rest := by
  unfold readUnits at h
  split at h
  · exact absurd h not_delivers_error
  next unit hunit =>
  obtain ⟨a, b, c, d, hvalue, hs⟩ := readHex4_iff.1 (delivers_of_eq hunit)
  split at h
  · exact absurd h not_delivers_error
  next notLow =>
  split at h
  · next isHigh =>
    obtain ⟨a', b', c', d', low, hlow, isLow, he, hrest⟩ :=
      readLowSurrogate_iff.1 (delivers_after.1 h)
    subst he
    refine ⟨[a, b, c, d, '\\', 'u', a', b', c', d'], .pair hvalue isHigh hlow isLow, ?_⟩
    rw [hs, hrest]
    rfl
  · next notHigh =>
    obtain ⟨rfl, rfl⟩ := delivers_ok.1 h
    rw [Bool.not_eq_true] at notLow notHigh
    exact ⟨[a, b, c, d], .code hvalue notLow notHigh, hs⟩

theorem delivers_readUnits_code {a b c d : Char} {n : Nat} (hvalue : hexValue4? a b c d = some n)
    (notLow : isLowSurrogate n = false) (notHigh : isHighSurrogate n = false) :
    Delivers (readUnits ([a, b, c, d] ++ rest)) (Char.ofNat n) rest := by
  obtain ⟨_, hunit⟩ := readHex4_iff.2 ⟨a, b, c, d, hvalue, (rfl : [a, b, c, d] ++ rest = _)⟩
  rw [readUnits, hunit]
  simp only [notLow, notHigh, Bool.false_eq_true, if_false]
  exact delivers_ok.2 ⟨rfl, rfl⟩

theorem delivers_readUnits_pair {a b c d a' b' c' d' : Char} {high low : Nat}
    (hvalue : hexValue4? a b c d = some high) (isHigh : isHighSurrogate high = true)
    (hlow : hexValue4? a' b' c' d' = some low) (isLow : isLowSurrogate low = true) :
    Delivers (readUnits ([a, b, c, d, '\\', 'u', a', b', c', d'] ++ rest)) (pairChar high low)
      rest := by
  obtain ⟨_, hunit⟩ := readHex4_iff.2
    ⟨a, b, c, d, hvalue, (rfl : [a, b, c, d, '\\', 'u', a', b', c', d'] ++ rest = _)⟩
  have notLow : isLowSurrogate high = false := isLowSurrogate_eq_false isHigh
  rw [readUnits, hunit]
  simp only [notLow, isHigh, Bool.false_eq_true, if_false, if_true]
  exact delivers_after.2 (readLowSurrogate_iff.2 ⟨a', b', c', d', low, hlow, isLow, rfl, rfl⟩)

theorem shortEscape?_u : shortEscape? 'u' = none := by decide

theorem exists_of_readEscape {e : Char} (h : Delivers (readEscape s) e rest) :
    ∃ piece, SpellsEscape e piece ∧ s = piece ++ rest := by
  unfold readEscape at h
  split at h
  · exact absurd h not_delivers_error
  next c s =>
  split at h
  · next short hshort =>
    obtain ⟨rfl, rfl⟩ := delivers_ok.1 h
    exact ⟨[c], .short hshort, rfl⟩
  · split at h
    · next hc =>
      obtain ⟨piece, hpiece, rfl⟩ := exists_of_readUnits (delivers_cons.1 h)
      exact ⟨'u' :: piece, hpiece, by rw [hc, List.cons_append]⟩
    · exact absurd h not_delivers_error

theorem delivers_readEscape_u {e : Char} (h : Delivers (readUnits s) e rest) :
    Delivers (readEscape ('u' :: s)) e rest := by
  rw [readEscape, shortEscape?_u, if_pos rfl]
  exact delivers_cons.2 h

theorem SpellsEscape.delivers_readEscape {e : Char} {piece : List Char}
    (h : SpellsEscape e piece) : Delivers (readEscape (piece ++ rest)) e rest := by
  cases h with
  | short hshort =>
    rw [List.cons_append, readEscape, hshort]
    exact delivers_ok.2 ⟨rfl, rfl⟩
  | code hvalue notLow notHigh =>
    exact delivers_readEscape_u (delivers_readUnits_code hvalue notLow notHigh)
  | pair hvalue isHigh hlow isLow =>
    exact delivers_readEscape_u (delivers_readUnits_pair hvalue isHigh hlow isLow)

/-! ## Texts -/

/-- A character that may stand for itself between quotes. -/
def IsPlain (c : Char) : Prop := c ≠ '"' ∧ c ≠ '\\' ∧ ¬ c.toNat < 0x20

inductive SpellsText : List Char → List Char → Prop
  | nil : SpellsText [] []
  | plain {c : Char} {value content : List Char} (hc : IsPlain c) (h : SpellsText value content) :
      SpellsText (c :: value) (c :: content)
  | escape {c : Char} {escape value content : List Char} (hc : SpellsEscape c escape)
      (h : SpellsText value content) : SpellsText (c :: value) ('\\' :: (escape ++ content))

theorem textFrom_eq_ok_iff {done value : List Char} :
    textFrom done s = .ok (value, rest) ↔
      ∃ tail content, value = done.reverse ++ tail ∧ SpellsText tail content ∧
        s = content ++ '"' :: rest := by
  constructor
  · intro h
    fun_induction textFrom done s with
    | case1 | case3 | case5 => cases h
    | case2 done s =>
      obtain ⟨rfl, rfl⟩ := Prod.mk.inj (Except.ok.inj h)
      exact ⟨[], [], (List.append_nil _).symm, .nil, rfl⟩
    | case4 done s e he hquote ih =>
      obtain ⟨tail, content, rfl, hspells, hs⟩ := ih h
      obtain ⟨piece, hpiece, heq⟩ := exists_of_readEscape (delivers_of_eq he)
      refine ⟨e.value :: tail, '\\' :: (piece ++ content), ?_, .escape hpiece hspells, ?_⟩
      · rw [List.reverse_cons, List.append_assoc, List.singleton_append]
      · rw [heq, hs, List.cons_append, List.append_assoc]
    | case6 done c s hquote hslash hcontrol ih =>
      obtain ⟨tail, content, rfl, hspells, rfl⟩ := ih h
      refine ⟨c :: tail, c :: content, ?_, .plain ⟨hquote, hslash, hcontrol⟩ hspells, rfl⟩
      rw [List.reverse_cons, List.append_assoc, List.singleton_append]
  · rintro ⟨tail, content, rfl, hspells, rfl⟩
    induction hspells generalizing done with
    | nil => rw [List.nil_append, textFrom, if_pos rfl, List.append_nil]
    | @plain c tail content hc _ ih =>
      rw [List.cons_append, textFrom, if_neg hc.1, if_neg hc.2.1, if_neg hc.2.2, ih,
        List.reverse_cons, List.append_assoc, List.singleton_append]
    | @escape c escape tail content hc _ ih =>
      obtain ⟨_, he⟩ : Delivers (readEscape (escape ++ (content ++ '"' :: rest))) _
        (content ++ '"' :: rest) := hc.delivers_readEscape
      rw [List.cons_append, List.append_assoc, textFrom, if_neg (by decide), if_pos rfl, he]
      simp only
      rw [ih, List.reverse_cons, List.append_assoc, List.singleton_append]

theorem readText_iff {value : List Char} :
    Delivers (readText s) value rest ↔
      ∃ content, SpellsText value content ∧ s = content ++ '"' :: rest := by
  rw [readText, Text.delivers_certify, textFrom_eq_ok_iff]
  constructor
  · rintro ⟨tail, content, rfl, hspells, hs⟩
    exact ⟨content, hspells, hs⟩
  · rintro ⟨content, hspells, hs⟩
    exact ⟨value, content, rfl, hspells, hs⟩

/-! ## Written texts -/

theorem hexValue?_hexDigit {n : Nat} (h : n < 16) : Text.hexValue? (Text.hexDigit n) = some n := by
  revert n
  decide

theorem SpellsText.short {e c : Char} {value content : List Char} (he : shortEscape? e = some c)
    (h : SpellsText value content) : SpellsText (c :: value) ('\\' :: e :: content) :=
  .escape (.short he) h

/-- A control character without a letter of its own is written with its code. -/
theorem spellsEscape_control {c : Char} (h : c.toNat < 0x20) :
    SpellsEscape c
      ['u', '0', '0', Text.hexDigit (c.toNat / 16), Text.hexDigit (c.toNat % 16)] := by
  have hzero : Text.hexValue? '0' = some 0 := by decide
  have hvalue : hexValue4? '0' '0' (Text.hexDigit (c.toNat / 16)) (Text.hexDigit (c.toNat % 16)) =
      some c.toNat := by
    have hsum : ((0 * 16 + 0) * 16 + c.toNat / 16) * 16 + c.toNat % 16 = c.toNat := by omega
    simp only [hexValue4?, hzero, hexValue?_hexDigit (show c.toNat / 16 < 16 by omega),
      hexValue?_hexDigit (show c.toNat % 16 < 16 by omega), hsum]
  have notLow : isLowSurrogate c.toNat = false := by
    simp only [isLowSurrogate, Bool.and_eq_false_iff, decide_eq_false_iff_not]
    omega
  have notHigh : isHighSurrogate c.toNat = false := by
    simp only [isHighSurrogate, Bool.and_eq_false_iff, decide_eq_false_iff_not]
    omega
  have hcode := SpellsEscape.code hvalue notLow notHigh
  rwa [Char.ofNat_toNat] at hcode

theorem spellsText_encodeChar (c : Char) {value content : List Char} (h : SpellsText value content) :
    SpellsText (c :: value) (encodeChar c ++ content) := by
  unfold encodeChar
  split
  · next hc => exact .short (by rw [hc]; rfl) h
  split
  · next hc => exact .short (by rw [hc]; rfl) h
  split
  · next hc => exact .short (by rw [hc]; rfl) h
  split
  · next hc => exact .short (by rw [hc]; rfl) h
  split
  · next hc => exact .short (by rw [hc]; rfl) h
  split
  · next hc => exact .short (by rw [hc]; rfl) h
  split
  · next hc => exact .short (by rw [hc]; rfl) h
  split
  · next hcontrol => exact .escape (spellsEscape_control hcontrol) h
  · next hquote hslash _ _ _ _ _ hcontrol => exact .plain ⟨hquote, hslash, hcontrol⟩ h

/-- A text between quotes, spelled in some way. -/
def SpellsQuoted (value piece : List Char) : Prop :=
  ∃ content, SpellsText value content ∧ piece = '"' :: (content ++ ['"'])

theorem spellsQuoted_encode (value : List Char) : SpellsQuoted value (encode value) := by
  refine ⟨value.flatMap encodeChar, ?_, rfl⟩
  induction value with
  | nil => exact .nil
  | cons c value ih =>
    rw [List.flatMap_cons]
    exact spellsText_encodeChar c ih

/-! ## Texts of no interest -/

inductive IsEscape : List Char → Prop
  | short {e : Char} (h : (shortEscape? e).isSome) : IsEscape [e]
  | code {a b c d : Char} (h : (hexValue4? a b c d).isSome) : IsEscape ['u', a, b, c, d]

inductive IsText : List Char → Prop
  | nil : IsText []
  | plain {c : Char} {content : List Char} (hc : IsPlain c) (h : IsText content) :
      IsText (c :: content)
  | escape {escape content : List Char} (he : IsEscape escape) (h : IsText content) :
      IsText ('\\' :: (escape ++ content))

def IsQuoted (piece : List Char) : Prop := ∃ content, IsText content ∧ piece = '"' :: (content ++ ['"'])

theorem SpellsText.isText {value content : List Char} (h : SpellsText value content) :
    IsText content := by
  induction h with
  | nil => exact .nil
  | plain hc _ ih => exact .plain hc ih
  | escape hc _ ih =>
    cases hc with
    | short he => exact .escape (.short (Option.isSome_of_eq_some he)) ih
    | code hvalue => exact .escape (.code (Option.isSome_of_eq_some hvalue)) ih
    | @pair a b c d a' b' c' d' _ _ hvalue _ hlow _ =>
      have hsecond := IsText.escape (.code (Option.isSome_of_eq_some hlow)) ih
      have hfirst := IsText.escape (.code (Option.isSome_of_eq_some hvalue)) hsecond
      exact hfirst

theorem SpellsQuoted.isQuoted {value piece : List Char} (h : SpellsQuoted value piece) :
    IsQuoted piece :=
  h.imp fun _ hspells => ⟨hspells.1.isText, hspells.2⟩

theorem exists_of_skipEscape (h : Delivers (skipEscape s) () rest) :
    ∃ piece, IsEscape piece ∧ s = piece ++ rest := by
  unfold skipEscape at h
  split at h
  · exact absurd h not_delivers_error
  next c s =>
  split at h
  · next hshort =>
    obtain ⟨-, rfl⟩ := delivers_ok.1 h
    exact ⟨[c], .short hshort, rfl⟩
  · split at h
    · next hc =>
      obtain ⟨n, hn⟩ := Text.delivers_map_unit_cons.1 h
      obtain ⟨a, b, c', d, hvalue, rfl⟩ := readHex4_iff.1 hn
      exact ⟨['u', a, b, c', d], .code (Option.isSome_of_eq_some hvalue), by rw [hc]; rfl⟩
    · exact absurd h not_delivers_error

theorem IsEscape.delivers_skipEscape {piece : List Char} (h : IsEscape piece) :
    Delivers (skipEscape (piece ++ rest)) () rest := by
  cases h with
  | short hshort =>
    rw [List.cons_append, skipEscape, if_pos hshort]
    exact delivers_ok.2 ⟨rfl, rfl⟩
  | @code a b c d hvalue =>
    obtain ⟨n, hn⟩ := Option.isSome_iff_exists.1 hvalue
    have hread : Delivers (readHex4 (a :: b :: c :: d :: rest)) n rest :=
      readHex4_iff.2 ⟨a, b, c, d, hn, rfl⟩
    rw [List.cons_append, skipEscape, if_neg (by decide), if_pos rfl]
    exact Text.delivers_map_unit_cons.2 ⟨n, hread⟩

theorem afterText_eq_ok_iff :
    afterText s = .ok rest ↔ ∃ content, IsText content ∧ s = content ++ '"' :: rest := by
  constructor
  · intro h
    fun_induction afterText s with
    | case1 | case3 | case5 => cases h
    | case2 s =>
      obtain rfl := Except.ok.inj h
      exact ⟨[], .nil, rfl⟩
    | case4 s e he hquote ih =>
      obtain ⟨content, htext, hs⟩ := ih h
      obtain ⟨piece, hpiece, heq⟩ := exists_of_skipEscape (delivers_of_eq he)
      refine ⟨'\\' :: (piece ++ content), .escape hpiece htext, ?_⟩
      rw [heq, hs, List.cons_append, List.append_assoc]
    | case6 c s hquote hslash hcontrol ih =>
      obtain ⟨content, htext, rfl⟩ := ih h
      exact ⟨c :: content, .plain ⟨hquote, hslash, hcontrol⟩ htext, rfl⟩
  · rintro ⟨content, htext, rfl⟩
    induction htext with
    | nil => rw [List.nil_append, afterText, if_pos rfl]
    | plain hc _ ih =>
      rw [List.cons_append, afterText, if_neg hc.1, if_neg hc.2.1, if_neg hc.2.2, ih]
    | @escape escape content he _ ih =>
      obtain ⟨_, hskip⟩ : Delivers (skipEscape (escape ++ (content ++ '"' :: rest))) ()
        (content ++ '"' :: rest) := he.delivers_skipEscape
      rw [List.cons_append, List.append_assoc, afterText, if_neg (by decide), if_pos rfl, hskip]
      exact ih

end RoutePolicy.Json
