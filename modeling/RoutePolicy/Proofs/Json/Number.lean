import RoutePolicy.Json.Skip

/-!
# The form of numbers

The grammar of JSON numbers, and that passing over a number passes over exactly one. Nothing marks
the end of a number, so it ends where no further character can belong to it (`Ends`).
-/

namespace RoutePolicy.Json

variable {s rest : List Char}

/-! ## Digits -/

def Digits (s : List Char) : Prop := ∀ c ∈ s, isDigit c = true

theorem Digits.nil : Digits [] := fun _ h => absurd h List.not_mem_nil

def NoDigit (s : List Char) : Prop := ∀ c, s.head? = some c → isDigit c = false

theorem NoDigit.nil : NoDigit [] := by simp [NoDigit]

theorem NoDigit.takeWhile_eq_nil (h : NoDigit s) : s.takeWhile isDigit = [] := by
  cases s with
  | nil => rfl
  | cons c s =>
    have hc : ¬ isDigit c = true := by
      rw [h c rfl]
      exact Bool.false_ne_true
    exact List.takeWhile_cons_of_neg hc

theorem exists_digits_append (s : List Char) :
    ∃ digits, Digits digits ∧ s = digits ++ afterDigits s :=
  ⟨s.takeWhile isDigit, List.all_eq_true.1 List.all_takeWhile,
    List.takeWhile_append_dropWhile.symm⟩

theorem noDigit_afterDigits (s : List Char) : NoDigit (afterDigits s) := by
  intro c hc
  have hnot := List.head?_dropWhile_not isDigit s
  rw [show s.dropWhile isDigit = afterDigits s from rfl, hc] at hnot
  simpa using hnot

theorem afterDigits_append {digits : List Char} (hdigits : Digits digits) (hrest : NoDigit rest) :
    afterDigits (digits ++ rest) = rest := by
  rw [afterDigits, List.dropWhile_append_of_pos hdigits]
  cases rest with
  | nil => rfl
  | cons c rest =>
    have hc : ¬ isDigit c = true := by
      rw [hrest c rfl]
      exact Bool.false_ne_true
    exact List.dropWhile_cons_of_neg hc

theorem NoDigit.afterDigits_eq_self (h : NoDigit s) : afterDigits s = s :=
  afterDigits_append Digits.nil h

/-- One digit at least. -/
def Numeral (s : List Char) : Prop := ∃ c digits, isDigit c = true ∧ Digits digits ∧ s = c :: digits

/-! ## The grammar -/

/-- An integer part: no zero stands in front of another digit. -/
inductive Whole : List Char → Prop
  | zero : Whole ['0']
  | other {c : Char} {digits : List Char} (hc : isDigit c = true) (hzero : c ≠ '0')
      (hdigits : Digits digits) : Whole (c :: digits)

/-- Decimals behind a point, or nothing. -/
inductive Fraction : List Char → Prop
  | none : Fraction []
  | some {digits : List Char} (h : Numeral digits) : Fraction ('.' :: digits)

/-- A power of ten, or nothing. -/
inductive Exponent : List Char → Prop
  | none : Exponent []
  | some {mark : Char} {digits : List Char} (hmark : isExponentMark mark = true)
      (h : Numeral digits) : Exponent (mark :: digits)
  | signed {mark sign : Char} {digits : List Char} (hmark : isExponentMark mark = true)
      (hsign : sign = '+' ∨ sign = '-') (h : Numeral digits) : Exponent (mark :: sign :: digits)

/-- A number without a sign. -/
def Magnitude (s : List Char) : Prop :=
  ∃ whole fraction exponent, Whole whole ∧ Fraction fraction ∧ Exponent exponent ∧
    s = whole ++ (fraction ++ exponent)

inductive IsNumber : List Char → Prop
  | plain {s : List Char} (h : Magnitude s) : IsNumber s
  | negative {s : List Char} (h : Magnitude s) : IsNumber ('-' :: s)

/-- No first character could belong to a number. -/
def Ends (s : List Char) : Prop :=
  ∀ c, s.head? = some c → isDigit c = false ∧ c ≠ '.' ∧ isExponentMark c = false

theorem Ends.nil : Ends [] := by simp [Ends]

theorem Ends.noDigit (h : Ends s) : NoDigit s := fun c hc => (h c hc).1

theorem Exponent.noDigit {exponent : List Char} (h : Exponent exponent) (hrest : NoDigit rest) :
    NoDigit (exponent ++ rest) := by
  cases h with
  | none => exact hrest
  | some hmark | signed hmark =>
    rintro _ ⟨⟩
    simp only [isExponentMark, Bool.or_eq_true, beq_iff_eq] at hmark
    rcases hmark with rfl | rfl
    · rfl
    · rfl

theorem Fraction.noDigit {fraction : List Char} (h : Fraction fraction) (hrest : NoDigit rest) :
    NoDigit (fraction ++ rest) := by
  cases h with
  | none => exact hrest
  | some =>
    rintro _ ⟨⟩
    rfl

/-! ## What is passed over is a number -/

theorem exists_of_afterExponentDigits (h : afterExponentDigits s = .ok rest) :
    ∃ digits, Numeral digits ∧ s = digits ++ rest := by
  unfold afterExponentDigits at h
  split at h
  · cases h
  · next c s =>
    split at h
    · next hc =>
      obtain rfl := Except.ok.inj h
      obtain ⟨digits, hdigits, hs⟩ := exists_digits_append s
      exact ⟨c :: digits, ⟨c, digits, hc, hdigits, rfl⟩, congrArg (c :: ·) hs⟩
    · cases h

theorem exists_of_afterFloatEnd (h : afterFloatEnd s = .ok rest) :
    ∃ exponent, Exponent exponent ∧ s = exponent ++ rest := by
  unfold afterFloatEnd at h
  split at h
  · obtain rfl := Except.ok.inj h
    exact ⟨[], .none, rfl⟩
  · next c s =>
    split at h
    · next hmark =>
      unfold afterExponent at h
      split at h
      · obtain ⟨digits, hdigits, rfl⟩ := exists_of_afterExponentDigits h
        exact ⟨c :: '+' :: digits, .signed hmark (.inl rfl) hdigits, rfl⟩
      · obtain ⟨digits, hdigits, rfl⟩ := exists_of_afterExponentDigits h
        exact ⟨c :: '-' :: digits, .signed hmark (.inr rfl) hdigits, rfl⟩
      · obtain ⟨digits, hdigits, rfl⟩ := exists_of_afterExponentDigits h
        exact ⟨c :: digits, .some hmark hdigits, rfl⟩
    · obtain rfl := Except.ok.inj h
      exact ⟨[], .none, rfl⟩

theorem exists_of_afterNumberEnd (h : afterNumberEnd s = .ok rest) :
    ∃ fraction exponent, Fraction fraction ∧ Exponent exponent ∧
      s = fraction ++ (exponent ++ rest) := by
  unfold afterNumberEnd at h
  split at h
  · obtain rfl := Except.ok.inj h
    exact ⟨[], [], .none, .none, rfl⟩
  · next c s =>
    split at h
    · next hpoint =>
      subst hpoint
      unfold afterFraction at h
      split at h
      · cases h
      · next d s =>
        split at h
        · next hd =>
          obtain ⟨exponent, hexponent, heq⟩ := exists_of_afterFloatEnd h
          obtain ⟨digits, hdigits, hs⟩ := exists_digits_append s
          refine ⟨'.' :: d :: digits, exponent, .some ⟨d, digits, hd, hdigits, rfl⟩, hexponent, ?_⟩
          rw [hs, heq]
          rfl
        · cases h
    · obtain ⟨exponent, hexponent, hs⟩ := exists_of_afterFloatEnd h
      exact ⟨[], exponent, .none, hexponent, hs⟩

theorem exists_of_afterMagnitude (h : afterMagnitude s = .ok rest) :
    ∃ magnitude, Magnitude magnitude ∧ s = magnitude ++ rest := by
  have finish : ∀ {whole s : List Char}, Whole whole → afterNumberEnd s = .ok rest →
      ∃ magnitude, Magnitude magnitude ∧ whole ++ s = magnitude ++ rest := by
    intro whole s hwhole h
    obtain ⟨fraction, exponent, hfraction, hexponent, rfl⟩ := exists_of_afterNumberEnd h
    refine ⟨_, ⟨whole, fraction, exponent, hwhole, hfraction, hexponent, rfl⟩, ?_⟩
    simp only [List.append_assoc]
  unfold afterMagnitude at h
  split at h
  · cases h
  · next c s =>
    split at h
    · next hzero =>
      subst hzero
      split at h
      · split at h
        · cases h
        · exact finish .zero h
      · obtain rfl := Except.ok.inj h
        exact finish .zero rfl
    · next hzero =>
      split at h
      · next hc =>
        obtain ⟨digits, hdigits, hs⟩ := exists_digits_append s
        rw [hs]
        exact finish (.other hc hzero hdigits) h
      · cases h

theorem exists_of_afterNumber (h : afterNumber s = .ok rest) :
    ∃ number, IsNumber number ∧ s = number ++ rest := by
  unfold afterNumber at h
  split at h
  · obtain ⟨magnitude, hmagnitude, rfl⟩ := exists_of_afterMagnitude h
    exact ⟨'-' :: magnitude, .negative hmagnitude, rfl⟩
  · obtain ⟨magnitude, hmagnitude, rfl⟩ := exists_of_afterMagnitude h
    exact ⟨magnitude, .plain hmagnitude, rfl⟩

/-! ## Every number is passed over -/

theorem afterExponentDigits_append {digits : List Char} (h : Numeral digits)
    (hrest : NoDigit rest) : afterExponentDigits (digits ++ rest) = .ok rest := by
  obtain ⟨c, digits, hc, hdigits, rfl⟩ := h
  rw [List.cons_append, afterExponentDigits, if_pos hc, afterDigits_append hdigits hrest]

theorem ne_sign_of_isDigit {c : Char} (h : isDigit c = true) : c ≠ '+' ∧ c ≠ '-' := by
  constructor
  · rintro rfl
    exact absurd h (by decide)
  · rintro rfl
    exact absurd h (by decide)

theorem afterFloatEnd_append {exponent : List Char} (h : Exponent exponent) (hrest : Ends rest) :
    afterFloatEnd (exponent ++ rest) = .ok rest := by
  cases h with
  | none =>
    cases rest with
    | nil => rfl
    | cons c rest =>
      have hmark : ¬ isExponentMark c = true := by
        rw [(hrest c rfl).2.2]
        exact Bool.false_ne_true
      rw [List.nil_append, afterFloatEnd, if_neg hmark]
  | some hmark h =>
    obtain ⟨c, digits, hc, hdigits, rfl⟩ := h
    have hsign := ne_sign_of_isDigit hc
    rw [List.cons_append, List.cons_append, afterFloatEnd, if_pos hmark, afterExponent]
    · exact afterExponentDigits_append ⟨c, digits, hc, hdigits, rfl⟩ hrest.noDigit
    · rintro _ heq
      exact hsign.1 (List.cons.inj heq).1
    · rintro _ heq
      exact hsign.2 (List.cons.inj heq).1
  | signed hmark hsign h =>
    rw [List.cons_append, List.cons_append, afterFloatEnd, if_pos hmark]
    rcases hsign with rfl | rfl
    · exact afterExponentDigits_append h hrest.noDigit
    · exact afterExponentDigits_append h hrest.noDigit

theorem afterNumberEnd_append {fraction exponent : List Char} (hfraction : Fraction fraction)
    (hexponent : Exponent exponent) (hrest : Ends rest) :
    afterNumberEnd (fraction ++ (exponent ++ rest)) = .ok rest := by
  have hfloat := afterFloatEnd_append hexponent hrest
  cases hfraction with
  | none =>
    rw [List.nil_append]
    cases hlist : exponent ++ rest with
    | nil =>
      rw [hlist] at hfloat
      exact hfloat
    | cons c tail =>
      have hpoint : c ≠ '.' := by
        cases hexponent with
        | none => exact (hrest c (congrArg List.head? hlist)).2.1
        | some hmark | signed hmark =>
          obtain ⟨rfl, -⟩ := List.cons.inj hlist
          rintro rfl
          exact absurd hmark (by decide)
      rw [afterNumberEnd, if_neg hpoint, ← hlist, hfloat]
  | some h =>
    obtain ⟨c, digits, hc, hdigits, rfl⟩ := h
    rw [List.cons_append, List.cons_append, afterNumberEnd, if_pos rfl, afterFraction, if_pos hc,
      afterDigits_append hdigits (hexponent.noDigit hrest.noDigit), hfloat]

theorem afterMagnitude_append {magnitude : List Char} (h : Magnitude magnitude)
    (hrest : Ends rest) : afterMagnitude (magnitude ++ rest) = .ok rest := by
  obtain ⟨whole, fraction, exponent, hwhole, hfraction, hexponent, rfl⟩ := h
  have hend := afterNumberEnd_append hfraction hexponent hrest
  have hdigit := hfraction.noDigit (hexponent.noDigit hrest.noDigit)
  rw [List.append_assoc, List.append_assoc]
  cases hwhole with
  | zero =>
    rw [List.cons_append, List.nil_append, afterMagnitude.eq_def]
    simp only [if_true]
    split
    · next d tail hlist =>
      have hd : ¬ isDigit d = true := by
        rw [hdigit d (congrArg List.head? hlist)]
        exact Bool.false_ne_true
      rw [if_neg hd, hend]
    · next hlist =>
      rw [hlist] at hend
      exact hend
  | other hc hzero hdigits =>
    rw [List.cons_append, afterMagnitude.eq_def]
    simp only [if_neg hzero, if_pos hc]
    rw [afterDigits_append hdigits hdigit, hend]

theorem Whole.exists_eq_cons {whole : List Char} (h : Whole whole) :
    ∃ c tail, whole = c :: tail ∧ isDigit c = true := by
  cases h with
  | zero => exact ⟨'0', [], rfl, rfl⟩
  | other hc => exact ⟨_, _, rfl, hc⟩

theorem afterNumber_append {number : List Char} (h : IsNumber number) (hrest : Ends rest) :
    afterNumber (number ++ rest) = .ok rest := by
  cases h with
  | plain h =>
    rw [afterNumber]
    · exact afterMagnitude_append h hrest
    · obtain ⟨whole, fraction, exponent, hwhole, -, -, rfl⟩ := h
      obtain ⟨c, tail, rfl, hc⟩ := hwhole.exists_eq_cons
      rintro s heq
      exact (ne_sign_of_isDigit hc).2 (List.cons.inj heq).1
  | negative h => exact afterMagnitude_append h hrest

end RoutePolicy.Json
