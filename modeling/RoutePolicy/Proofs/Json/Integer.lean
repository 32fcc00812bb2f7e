import RoutePolicy.Json.Value
import RoutePolicy.Proofs.Decimal.Digits
import RoutePolicy.Proofs.Json.Number
import RoutePolicy.Proofs.Json.Token
import RoutePolicy.Proofs.Text.Read

/-!
# Spellings of integers

A 64-bit integer is read exactly from its decimal spelling without fraction and exponent; no other
number counts as one. There is one spelling for every integer, the written one.
-/

namespace RoutePolicy.Json

open Decimal (valueAfter appendDigit appendDigit_eq le_valueAfter)
open Text (Read Delivers delivers_of_eq delivers_ok not_delivers_error)

variable {s rest : List Char} {isNegative : Bool} {value : Number}

def Number.isInteger : Number → Bool
  | natural _ => true
  | negative _ => true
  | float _ => false

/-! ## Floats are no integers -/

theorem not_isInteger_of_finishFloat {significand : Nat} {exponent : Int}
    (h : finishFloat isNegative significand exponent s = .ok (value, rest)) :
    value.isInteger = false := by
  unfold finishFloat at h
  split at h
  · obtain ⟨rfl, -⟩ := Prod.mk.inj (Except.ok.inj h)
    rfl
  · cases h

theorem not_isInteger_of_readExponentDigits {significand : Nat} {exponent : Int} {shrinks : Bool}
    (h : readExponentDigits isNegative significand exponent shrinks s = .ok (value, rest)) :
    value.isInteger = false := by
  unfold readExponentDigits at h
  split at h
  · cases h
  split at h
  · split at h
    · exact not_isInteger_of_finishFloat h
    · split at h
      · split at h
        · obtain ⟨rfl, -⟩ := Prod.mk.inj (Except.ok.inj h)
          rfl
        · cases h
      · exact not_isInteger_of_finishFloat h
  · cases h

theorem not_isInteger_of_readExponent {significand : Nat} {exponent : Int}
    (h : readExponent isNegative significand exponent s = .ok (value, rest)) :
    value.isInteger = false := by
  unfold readExponent at h
  split at h
  · exact not_isInteger_of_readExponentDigits h
  · exact not_isInteger_of_readExponentDigits h
  · exact not_isInteger_of_readExponentDigits h

theorem not_isInteger_of_readFloatEnd {significand : Nat} {exponent : Int}
    (h : readFloatEnd isNegative significand exponent s = .ok (value, rest)) :
    value.isInteger = false := by
  unfold readFloatEnd at h
  split at h
  · exact not_isInteger_of_finishFloat h
  split at h
  · exact not_isInteger_of_readExponent h
  · exact not_isInteger_of_finishFloat h

theorem not_isInteger_of_readFraction {significand : Nat} {exponent : Int}
    (h : readFraction isNegative significand exponent s = .ok (value, rest)) :
    value.isInteger = false := by
  unfold readFraction at h
  split at h
  · cases h
  split at h
  · exact not_isInteger_of_readFloatEnd h
  · cases h

/-! ## Digits of integers -/

/-- An integer ends where its digits do, if neither a point nor an exponent follows and every digit
counted. -/
theorem of_readNumberEnd {significand exponent : Nat} (hvalue : value.isInteger = true)
    (hs : NoDigit s) (h : readNumberEnd isNegative significand exponent s = .ok (value, rest)) :
    exponent = 0 ∧ value = integerNumber isNegative significand ∧ s = rest ∧ Ends rest := by
  have notFloat : ∀ {exponent : Int} {s : List Char},
      finishFloat isNegative significand exponent s ≠ .ok (value, rest) := by
    intro exponent s h
    exact absurd hvalue (Bool.not_eq_true _ ▸ not_isInteger_of_finishFloat h)
  unfold readNumberEnd at h
  split at h
  · split at h
    · next hexponent =>
      obtain ⟨rfl, rfl⟩ := Prod.mk.inj (Except.ok.inj h)
      exact ⟨hexponent, rfl, rfl, Ends.nil⟩
    · exact absurd h notFloat
  · next c s =>
    split at h
    · exact absurd hvalue (Bool.not_eq_true _ ▸ not_isInteger_of_readFraction h)
    next hpoint =>
    split at h
    · exact absurd hvalue (Bool.not_eq_true _ ▸ not_isInteger_of_readExponent h)
    next hmark =>
    split at h
    · next hexponent =>
      obtain ⟨rfl, rfl⟩ := Prod.mk.inj (Except.ok.inj h)
      refine ⟨hexponent, rfl, rfl, ?_⟩
      rintro d ⟨⟩
      exact ⟨hs c rfl, hpoint, Bool.not_eq_true _ ▸ hmark⟩
    · exact absurd h notFloat

theorem readNumberEnd_of_ends {significand : Nat} (h : Ends rest) :
    readNumberEnd isNegative significand 0 rest =
      .ok (integerNumber isNegative significand, rest) := by
  cases rest with
  | nil => rfl
  | cons c rest =>
    obtain ⟨-, hpoint, hmark⟩ := h c rfl
    have hmark' : ¬ isExponentMark c = true := by
      rw [hmark]
      exact Bool.false_ne_true
    rw [readNumberEnd, if_neg hpoint, if_neg hmark', if_pos rfl]

theorem exists_of_appendDigits {limit before count after : Nat} {length : Nat}
    (h : appendDigits limit before count s = (after, length, rest)) :
    ∃ digits, Digits digits ∧ s = digits ++ rest ∧ after = valueAfter before digits ∧
      (before < limit → after < limit) := by
  induction s generalizing before count with
  | nil =>
    obtain ⟨rfl, hrest⟩ := Prod.mk.inj h
    obtain ⟨-, rfl⟩ := Prod.mk.inj hrest
    exact ⟨[], Digits.nil, rfl, rfl, id⟩
  | cons c s ih =>
    rw [appendDigits] at h
    by_cases hc : (isDigit c && decide (before * 10 + (c.toNat - 0x30) < limit)) = true
    · rw [if_pos hc] at h
      obtain ⟨digits, hdigits, rfl, hafter, hlimit⟩ := ih h
      rw [Bool.and_eq_true, decide_eq_true_eq] at hc
      have happend : appendDigit before c = before * 10 + (c.toNat - 0x30) := appendDigit_eq before c
      refine ⟨c :: digits, ?_, rfl, ?_, fun _ => hlimit hc.2⟩
      · exact List.forall_mem_cons.2 ⟨hc.1, hdigits⟩
      · rw [valueAfter, happend, hafter]
    · rw [if_neg hc] at h
      obtain ⟨rfl, hrest⟩ := Prod.mk.inj h
      obtain ⟨-, rfl⟩ := Prod.mk.inj hrest
      exact ⟨[], Digits.nil, rfl, rfl, id⟩

theorem appendDigits_append {limit before count : Nat} {digits : List Char}
    (hdigits : Digits digits) (hlimit : valueAfter before digits < limit) (hrest : NoDigit rest) :
    appendDigits limit before count (digits ++ rest) =
      (valueAfter before digits, count + digits.length, rest) := by
  induction digits generalizing before count with
  | nil =>
    cases rest with
    | nil => rfl
    | cons c rest =>
      have hc : ¬ (isDigit c && decide (before * 10 + (c.toNat - 0x30) < limit)) = true := by
        rw [hrest c rfl, Bool.false_and]
        exact Bool.false_ne_true
      rw [List.nil_append, appendDigits, if_neg hc]
      rfl
  | cons c digits ih =>
    obtain ⟨hc, hdigits⟩ := List.forall_mem_cons.1 hdigits
    have happend : appendDigit before c = before * 10 + (c.toNat - 0x30) := appendDigit_eq before c
    rw [valueAfter, happend] at hlimit ⊢
    have hgrown := Nat.lt_of_le_of_lt (le_valueAfter _ _) hlimit
    rw [List.cons_append, appendDigits, hc, Bool.true_and, if_pos (decide_eq_true hgrown),
      ih hdigits hlimit, List.length_cons, Nat.add_right_comm, Nat.add_assoc]

/-! ## Integers -/

theorem appendDigit_zero (c : Char) : appendDigit 0 c = c.toNat - 0x30 := by
  rw [appendDigit_eq, Nat.zero_mul, Nat.zero_add, Decimal.digitValue]

theorem digitValue_lt {c : Char} (h : isDigit c = true) : c.toNat - 0x30 < 10 := by
  rw [isDigit, Bool.and_eq_true, decide_eq_true_eq, decide_eq_true_eq] at h
  have hnine : c.toNat ≤ 0x39 := UInt32.le_iff_toNat_le.1 h.2
  omega

theorem valueAfter_zero : valueAfter 0 ['0'] = 0 := appendDigit_zero '0'

theorem of_readNumberEnd_appendDigits {c : Char} {significand length : Nat} {tail : List Char}
    (hvalue : value.isInteger = true) (hc : isDigit c = true) (hne : c ≠ '0')
    (happend : appendDigits significandLimit (c.toNat - 0x30) 0 s = (significand, length, tail))
    (h : readNumberEnd isNegative significand (tail.takeWhile isDigit).length (afterDigits tail) =
      .ok (value, rest)) :
    ∃ whole, Whole whole ∧ valueAfter 0 whole < significandLimit ∧
      value = integerNumber isNegative (valueAfter 0 whole) ∧ c :: s = whole ++ rest ∧
        Ends rest := by
  obtain ⟨hlength, rfl, hrest, hends⟩ := of_readNumberEnd hvalue (noDigit_afterDigits tail) h
  obtain ⟨digits, hdigits, hs, rfl, hlimit⟩ := exists_of_appendDigits happend
  have hnone : tail.takeWhile isDigit = [] := List.length_eq_zero_iff.1 hlength
  have htail : tail = rest := by
    have hsplit := List.takeWhile_append_dropWhile (p := isDigit) (l := tail)
    rw [hnone] at hsplit
    exact hsplit.symm.trans hrest
  refine ⟨c :: digits, .other hc hne hdigits, ?_⟩
  rw [valueAfter, appendDigit_zero]
  exact ⟨hlimit (Nat.lt_trans (digitValue_lt hc) (by decide)), rfl, by rw [hs, htail]; rfl, hends⟩

theorem of_readMagnitude (hvalue : value.isInteger = true)
    (h : readMagnitude isNegative s = .ok (value, rest)) :
    ∃ whole, Whole whole ∧ valueAfter 0 whole < significandLimit ∧
      value = integerNumber isNegative (valueAfter 0 whole) ∧ s = whole ++ rest ∧ Ends rest := by
  unfold readMagnitude at h
  split at h
  · cases h
  next c s =>
  split at h
  · next hc =>
    subst hc
    refine ⟨['0'], .zero, by rw [valueAfter_zero]; decide, ?_⟩
    rw [valueAfter_zero]
    split at h
    · next d tail =>
      split at h
      · cases h
      · next hd =>
        have hdigit : NoDigit (d :: tail) := by
          rintro _ ⟨⟩
          exact Bool.not_eq_true _ ▸ hd
        obtain ⟨-, rfl, rfl, hends⟩ := of_readNumberEnd hvalue hdigit h
        exact ⟨rfl, rfl, hends⟩
    · obtain ⟨-, rfl, rfl, hends⟩ := of_readNumberEnd hvalue NoDigit.nil h
      exact ⟨rfl, rfl, hends⟩
  · next hne =>
    split at h
    · next hc => exact of_readNumberEnd_appendDigits hvalue hc hne rfl h
    · cases h

theorem readMagnitude_append {whole : List Char} (hwhole : Whole whole)
    (hlimit : valueAfter 0 whole < significandLimit) (hends : Ends rest) :
    readMagnitude isNegative (whole ++ rest) =
      .ok (integerNumber isNegative (valueAfter 0 whole), rest) := by
  cases hwhole with
  | zero =>
    have hend : readNumberEnd isNegative 0 0 rest = .ok (integerNumber isNegative 0, rest) :=
      readNumberEnd_of_ends hends
    rw [valueAfter_zero, List.cons_append, List.nil_append, readMagnitude.eq_def]
    simp only [if_true]
    split
    · next d tail =>
      have hd : ¬ isDigit d = true := by
        rw [hends.noDigit d rfl]
        exact Bool.false_ne_true
      rw [if_neg hd, hend]
    · exact hend
  | @other c digits hc hne hdigits =>
    rw [valueAfter, appendDigit_zero] at hlimit ⊢
    rw [List.cons_append, readMagnitude.eq_def]
    simp only [if_neg hne, if_pos hc]
    rw [appendDigits_append hdigits hlimit hends.noDigit]
    simp only [hends.noDigit.takeWhile_eq_nil, hends.noDigit.afterDigits_eq_self, List.length_nil]
    exact readNumberEnd_of_ends hends

theorem of_numberFrom (hvalue : value.isInteger = true)
    (h : numberFrom s = .ok (value, rest)) :
    ∃ isNegative whole, Whole whole ∧ valueAfter 0 whole < significandLimit ∧
      value = integerNumber isNegative (valueAfter 0 whole) ∧
      s = (if isNegative then ['-'] else []) ++ (whole ++ rest) ∧ Ends rest := by
  unfold numberFrom at h
  split at h
  · obtain ⟨whole, hwhole, hlimit, heq, rfl, hends⟩ := of_readMagnitude hvalue h
    exact ⟨true, whole, hwhole, hlimit, heq, rfl, hends⟩
  · obtain ⟨whole, hwhole, hlimit, heq, rfl, hends⟩ := of_readMagnitude hvalue h
    exact ⟨false, whole, hwhole, hlimit, heq, rfl, hends⟩

theorem numberFrom_append {whole : List Char} (hwhole : Whole whole)
    (hlimit : valueAfter 0 whole < significandLimit) (hends : Ends rest) :
    numberFrom ((if isNegative then ['-'] else []) ++ (whole ++ rest)) =
      .ok (integerNumber isNegative (valueAfter 0 whole), rest) := by
  cases isNegative with
  | true => exact readMagnitude_append hwhole hlimit hends
  | false =>
    have hread : readMagnitude false (whole ++ rest) = _ := readMagnitude_append hwhole hlimit hends
    rw [if_neg Bool.false_ne_true, List.nil_append, numberFrom]
    · exact hread
    · obtain ⟨c, tail, rfl, hc⟩ := hwhole.exists_eq_cons
      rintro t heq
      exact (ne_sign_of_isDigit hc).2 (List.cons.inj heq).1

/-! ## Integers of 64 bits -/

inductive SpellsInt64 : Int64 → List Char → Prop
  | natural {whole : List Char} (h : Whole whole) (hlimit : valueAfter 0 whole < signedLimit) :
      SpellsInt64 (Int64.ofNat (valueAfter 0 whole)) whole
  | negative {whole : List Char} (h : Whole whole) (hzero : valueAfter 0 whole ≠ 0)
      (hlimit : valueAfter 0 whole ≤ signedLimit) :
      SpellsInt64 (Int64.ofInt (-(valueAfter 0 whole))) ('-' :: whole)

theorem spellsInt64_of_toInt64 {whole : List Char} {i : Int64} (hwhole : Whole whole)
    (h : (integerNumber isNegative (valueAfter 0 whole)).toInt64 = .ok i) :
    SpellsInt64 i ((if isNegative then ['-'] else []) ++ whole) := by
  unfold integerNumber at h
  split at h
  · next hneg =>
    subst hneg
    split at h
    · cases h
    · next hbounds =>
      obtain ⟨hzero, hlimit⟩ := not_or.1 hbounds
      obtain rfl := Except.ok.inj h
      exact .negative hwhole hzero (Nat.le_of_not_lt hlimit)
  · next hneg =>
    rw [Number.toInt64] at h
    rw [if_neg hneg]
    split at h
    · next hlimit =>
      obtain rfl := Except.ok.inj h
      exact .natural hwhole hlimit
    · cases h

theorem SpellsInt64.exists_toInt64 {piece : List Char} {i : Int64} (h : SpellsInt64 i piece) :
    ∃ isNegative whole, Whole whole ∧ valueAfter 0 whole < significandLimit ∧
      (integerNumber isNegative (valueAfter 0 whole)).toInt64 = .ok i ∧
      piece = (if isNegative then ['-'] else []) ++ whole := by
  have hlimits : signedLimit < significandLimit := by decide
  cases h with
  | natural hwhole hlimit =>
    refine ⟨false, piece, hwhole, Nat.lt_trans hlimit hlimits, ?_, rfl⟩
    exact if_pos hlimit
  | @negative whole hwhole hzero hlimit =>
    refine ⟨true, whole, hwhole, Nat.lt_of_le_of_lt hlimit hlimits, ?_, rfl⟩
    have hbounds : ¬ (valueAfter 0 whole = 0 ∨ signedLimit < valueAfter 0 whole) :=
      not_or.2 ⟨hzero, Nat.not_lt.2 hlimit⟩
    rw [integerNumber, if_pos rfl, if_neg hbounds]
    rfl

theorem SpellsInt64.exists_eq_cons {piece : List Char} {i : Int64} (h : SpellsInt64 i piece) :
    ∃ c tail, piece = c :: tail ∧ (c = '-' ∨ isDigit c = true) := by
  cases h with
  | natural hwhole =>
    obtain ⟨c, tail, hcons, hc⟩ := hwhole.exists_eq_cons
    exact ⟨c, tail, hcons, .inr hc⟩
  | negative => exact ⟨'-', _, rfl, .inl rfl⟩

theorem not_isBlank_of_number {c : Char} (h : c = '-' ∨ isDigit c = true) : isBlank c = false := by
  rw [← Bool.not_eq_true]
  intro hblank
  simp only [isBlank, Bool.or_eq_true, beq_iff_eq] at hblank
  rcases hblank with ((rfl | rfl) | rfl) | rfl
  · exact absurd h (by decide)
  · exact absurd h (by decide)
  · exact absurd h (by decide)
  · exact absurd h (by decide)

theorem exists_of_toInt64 {i : Int64} (hi : value.toInt64 = .ok i)
    (h : numberFrom s = .ok (value, rest)) :
    ∃ piece, SpellsInt64 i piece ∧ Ends rest ∧ s = piece ++ rest := by
  have hinteger : value.isInteger = true := by
    cases value with
    | natural | negative => rfl
    | float => cases hi
  obtain ⟨isNegative, whole, hwhole, hlimit, rfl, htext, hends⟩ := of_numberFrom hinteger h
  refine ⟨_, spellsInt64_of_toInt64 hwhole hi, hends, ?_⟩
  rw [List.append_assoc]
  exact htext

theorem SpellsInt64.exists_numberFrom {piece : List Char} {i : Int64} (h : SpellsInt64 i piece)
    (hends : Ends rest) :
    ∃ value, numberFrom (piece ++ rest) = .ok (value, rest) ∧ value.toInt64 = .ok i := by
  obtain ⟨isNegative, whole, hwhole, hlimit, hi, rfl⟩ := h.exists_toInt64
  refine ⟨_, ?_, hi⟩
  rw [List.append_assoc]
  exact numberFrom_append hwhole hlimit hends

/-- A 64-bit integer is found exactly where it is spelled and the number ends. -/
theorem readInt64_iff {i : Int64} :
    Delivers (readInt64 s) i rest ↔
      ∃ blanks piece, Blanks blanks ∧ SpellsInt64 i piece ∧ Ends rest ∧
        s = blanks ++ (piece ++ rest) := by
  constructor
  · intro h
    unfold readInt64 at h
    split at h
    · exact absurd h not_delivers_error
    next token htoken =>
    split at h
    · obtain ⟨blanks, hblanks, -, hs⟩ := finds_iff.1 (finds_of_eq htoken)
      split at h
      · exact absurd h not_delivers_error
      next r hr =>
      split at h
      · next i' hi =>
        obtain ⟨rfl, rfl⟩ := delivers_ok.1 h
        obtain ⟨piece, hpiece, hends, htext⟩ :=
          exists_of_toInt64 hi (Text.delivers_certify.1 (delivers_of_eq hr))
        exact ⟨blanks, piece, hblanks, hpiece, hends, hs.trans (congrArg (blanks ++ ·) htext)⟩
      · exact absurd h not_delivers_error
    · exact absurd h not_delivers_error
  · rintro ⟨blanks, piece, hblanks, hspells, hends, rfl⟩
    obtain ⟨value, hnumber, hi⟩ := hspells.exists_numberFrom hends
    obtain ⟨c, tail, rfl, hc⟩ := hspells.exists_eq_cons
    have hfinds : Finds (blanks ++ (c :: tail ++ rest)) c (tail ++ rest) :=
      finds_iff.2 ⟨blanks, hblanks, not_isBlank_of_number hc, rfl⟩
    have hdelivers : Delivers (readNumber (c :: (tail ++ rest))) value rest :=
      Text.delivers_certify.2 hnumber
    obtain ⟨_, htoken⟩ := hfinds
    obtain ⟨_, hread⟩ := hdelivers
    rw [readInt64, htoken]
    simp only [if_pos hc]
    rw [hread]
    simp only [hi]
    exact delivers_ok.2 ⟨rfl, rfl⟩

theorem spellsInt64_ofInt (i : Int64) : SpellsInt64 i (Decimal.ofInt i.toInt) := by
  have hlow := i.le_toInt
  have hhigh := i.toInt_lt
  have hwhole : Whole (Decimal.digits i.toInt.natAbs) := by
    by_cases hzero : i.toInt.natAbs = 0
    · rw [hzero, Decimal.digits_zero]
      exact .zero
    · obtain ⟨c, tail, hdigits, hc⟩ := Decimal.exists_digits_eq_cons hzero
      have hall : Digits (c :: tail) := fun d hd => by
        have hdigit := Decimal.isDigit_of_mem_digits (hdigits ▸ hd)
        rw [isDigit, decide_eq_true hdigit.1, decide_eq_true hdigit.2]
        rfl
      rw [hdigits]
      exact .other (hall c List.mem_cons_self) hc fun d hd => hall d (List.mem_cons_of_mem c hd)
  have hvalue := Decimal.valueAfter_digits i.toInt.natAbs
  rw [Decimal.ofInt]
  split
  · next hneg =>
    have hi : i = Int64.ofInt (-(i.toInt.natAbs : Int)) := by
      rw [Int.ofNat_natAbs_of_nonpos (Int.le_of_lt hneg), Int.neg_neg, Int64.ofInt_toInt]
    have hspells := SpellsInt64.negative hwhole (by rw [hvalue]; omega)
      (by rw [hvalue, signedLimit]; omega)
    rw [hvalue, ← hi] at hspells
    exact hspells
  · next hneg =>
    have hi : i = Int64.ofNat i.toInt.natAbs := by
      rw [← Int64.ofInt_eq_ofNat, Int.natAbs_of_nonneg (Int.not_lt.1 hneg), Int64.ofInt_toInt]
    have hspells := SpellsInt64.natural hwhole (by rw [hvalue, signedLimit]; omega)
    rw [hvalue, ← hi] at hspells
    exact hspells

end RoutePolicy.Json
