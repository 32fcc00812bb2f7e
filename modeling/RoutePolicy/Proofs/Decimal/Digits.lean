import RoutePolicy.Decimal

/-!
# Reading digits back

The digits of a number are digit characters, begin with `0` only for zero, and have the number as
their value.
-/

namespace RoutePolicy.Decimal

def IsDigit (c : Char) : Prop := '0' ≤ c ∧ c ≤ '9'

@[irreducible] def appendDigit (before : Nat) (c : Char) : Nat := before * 10 + digitValue c

theorem appendDigit_eq (before : Nat) (c : Char) :
    appendDigit before c = before * 10 + digitValue c := by
  unfold appendDigit
  rfl

/-- The value of digits that stand behind others of the value `before`. -/
def valueAfter (before : Nat) : List Char → Nat
  | [] => before
  | c :: s => valueAfter (appendDigit before c) s

theorem valueAfter_snoc (before : Nat) (s : List Char) (c : Char) :
    valueAfter before (s ++ [c]) = appendDigit (valueAfter before s) c := by
  induction s generalizing before with
  | nil => rfl
  | cons d s ih => exact ih _

theorem le_valueAfter (before : Nat) (s : List Char) : before ≤ valueAfter before s := by
  induction s generalizing before with
  | nil => exact Nat.le_refl _
  | cons c s ih =>
    have hstep : before ≤ appendDigit before c := by
      rw [appendDigit_eq]
      omega
    exact Nat.le_trans hstep (ih _)

theorem isDigit_digitChar {d : Nat} (h : d < 10) : IsDigit (digitChar d) := by
  revert d
  unfold IsDigit
  decide

theorem digitValue_digitChar {d : Nat} (h : d < 10) : digitValue (digitChar d) = d := by
  revert d
  decide

/-- The digits of a number are its usual text. -/
theorem ofList_digits (n : Nat) : String.ofList (digits n) = toString n := by
  have hchar : ∀ {d : Nat}, d < 10 → digitChar d = Nat.digitChar d := by decide
  have hdigits : digits n = Nat.toDigits 10 n := by
    fun_induction digits n with
    | case1 n hsmall => rw [Nat.toDigits_of_lt_base hsmall, hchar hsmall]
    | case2 n hlarge ih =>
      rw [Nat.toDigits_of_base_le (by decide) (Nat.le_of_not_lt hlarge), ih,
        hchar (Nat.mod_lt n (by decide))]
  rw [hdigits]
  rfl

theorem isDigit_of_mem_digits {n : Nat} {c : Char} (h : c ∈ digits n) : IsDigit c := by
  induction n using digits.induct with
  | case1 n hsmall =>
    rw [digits, if_pos hsmall, List.mem_singleton] at h
    exact h ▸ isDigit_digitChar hsmall
  | case2 n hlarge ih =>
    rw [digits, if_neg hlarge, List.mem_append, List.mem_singleton] at h
    rcases h with h | h
    · exact ih h
    · exact h ▸ isDigit_digitChar (Nat.mod_lt n (by decide))

theorem valueAfter_digits (n : Nat) : valueAfter 0 (digits n) = n := by
  induction n using digits.induct with
  | case1 n hsmall =>
    have hone : valueAfter 0 [digitChar n] = appendDigit 0 (digitChar n) := rfl
    rw [digits, if_pos hsmall, hone, appendDigit_eq, digitValue_digitChar hsmall]
    omega
  | case2 n hlarge ih =>
    rw [digits, if_neg hlarge, valueAfter_snoc, ih, appendDigit_eq,
      digitValue_digitChar (Nat.mod_lt n (by decide))]
    omega

/-- The digits of a number that is not zero begin with another digit than `0`. -/
theorem exists_digits_eq_cons {n : Nat} (h : n ≠ 0) : ∃ c s, digits n = c :: s ∧ c ≠ '0' := by
  induction n using digits.induct with
  | case1 n hsmall =>
    refine ⟨digitChar n, [], by rw [digits, if_pos hsmall], ?_⟩
    intro hzero
    have hvalue := digitValue_digitChar hsmall
    rw [hzero] at hvalue
    exact h hvalue.symm
  | case2 n hlarge ih =>
    obtain ⟨c, s, hdigits, hc⟩ := ih (by omega)
    refine ⟨c, s ++ [digitChar (n % 10)], ?_, hc⟩
    rw [digits, if_neg hlarge, hdigits, List.cons_append]

theorem digits_zero : digits 0 = ['0'] := by
  rw [digits, if_pos (by decide)]
  rfl

end RoutePolicy.Decimal
