import RoutePolicy.Json.Basic

/-!
# JSON numbers

An integer that fits into 64 bits is kept exactly; every other number is a float. The significand of
a float is the longest run of its digits that fits into 64 bits: an integer digit beyond that counts
as a zero, a decimal beyond it does not count. The float is the significand multiplied or divided by
one power of ten, which need not be the float nearest to the decimal.
-/

namespace RoutePolicy.Json

open Text (Read)

inductive Number where
  /-- An integer from 0 to `2 ^ 64 - 1`. -/
  | natural (n : Nat)
  /-- The integer `-n`, from `-2 ^ 63` to -1. -/
  | negative (n : Nat)
  | float (x : Float)

/-- The bound of the integers with a sign that fit into 64 bits, `2 ^ 63`. -/
def signedLimit : Nat := 9223372036854775808

/-- The bound of the integers without a sign that fit into 64 bits, `2 ^ 64`. -/
def significandLimit : Nat := 18446744073709551616

/-- The bound of exponents, `2 ^ 31`. -/
def exponentLimit : Nat := 2147483648

def isDigit (c : Char) : Bool := '0' ≤ c && c ≤ '9'

def afterDigits (s : List Char) : List Char := s.dropWhile isDigit

/-! ## Floats -/

/-- The float nearest to `10 ^ n`, for `n` up to 308. -/
def powerOfTen (n : Nat) : Float := Float.ofScientific 1 false n

/-- Divides by `10 ^ n`, in steps that powers of ten have floats for. -/
def scaleDown (x : Float) (n : Nat) : Float :=
  if n ≤ 308 then x / powerOfTen n
  else if x == 0 then x
  else scaleDown (x / powerOfTen 308) (n - 308)
termination_by n

/-- Multiplies by `10 ^ n`, unless that is beyond every float. -/
def scaleUp? (x : Float) (n : Nat) : Option Float :=
  if n ≤ 308 then
    let y := x * powerOfTen n
    if y.isInf then none else some y
  else if x == 0 then some x
  else none

/-- The float of a sign, a significand below `2 ^ 64` and a power of ten. -/
def floatOf? (isNegative : Bool) (significand : Nat) (exponent : Int) : Option Float :=
  let x := (UInt64.ofNat significand).toFloat
  let scaled? := if 0 ≤ exponent then scaleUp? x exponent.toNat
    else some (scaleDown x (-exponent).toNat)
  scaled?.map fun y => if isNegative then -y else y

/-! ## Reading -/

/-- Appends digits to a number as long as it stays below a limit. Gives the number, how many digits
were appended, and the text behind them. -/
def appendDigits (limit value count : Nat) : List Char → Nat × Nat × List Char
  | [] => (value, count, [])
  | c :: s =>
    let grown := value * 10 + (c.toNat - 0x30)
    if isDigit c && decide (grown < limit) then appendDigits limit grown (count + 1) s
    else (value, count, c :: s)

/-- A float or the fault that it is too large, which is noticed behind the number. -/
def finishFloat (isNegative : Bool) (significand : Nat) (exponent : Int) (rest : List Char) :
    Except Fault (Number × List Char) :=
  match floatOf? isNegative significand exponent with
  | some x => .ok (.float x, rest)
  | none => .error (.here .numberOutOfRange rest)

/-- Reads an exponent behind its sign. Where it does not fit into 32 bits, the value is zero or the
number is too large. -/
def readExponentDigits (isNegative : Bool) (significand : Nat) (exponent : Int)
    (shrinks : Bool) : List Char → Except Fault (Number × List Char)
  | [] => .error (.here .endInValue [])
  | c :: s =>
    if isDigit c then
      match appendDigits exponentLimit (c.toNat - 0x30) 0 s with
      | (size, _, []) =>
        finishFloat isNegative significand (if shrinks then exponent - size else exponent + size) []
      | (size, _, d :: rest) =>
        if isDigit d then
          if significand = 0 ∨ shrinks then
            .ok (.float (if isNegative then -0.0 else 0.0), afterDigits rest)
          else .error (.here .numberOutOfRange rest)
        else
          finishFloat isNegative significand
            (if shrinks then exponent - size else exponent + size) (d :: rest)
    else .error (.next .badNumber (c :: s))

def readExponent (isNegative : Bool) (significand : Nat) (exponent : Int) :
    List Char → Except Fault (Number × List Char)
  | '+' :: s => readExponentDigits isNegative significand exponent false s
  | '-' :: s => readExponentDigits isNegative significand exponent true s
  | s => readExponentDigits isNegative significand exponent false s

def isExponentMark (c : Char) : Bool := c == 'e' || c == 'E'

def readFloatEnd (isNegative : Bool) (significand : Nat) (exponent : Int) :
    List Char → Except Fault (Number × List Char)
  | [] => finishFloat isNegative significand exponent []
  | c :: s =>
    if isExponentMark c then readExponent isNegative significand exponent s
    else finishFloat isNegative significand exponent (c :: s)

def readFraction (isNegative : Bool) (significand : Nat) (exponent : Int) (s : List Char) :
    Except Fault (Number × List Char) :=
  match s with
  | [] => .error (.next .endInValue [])
  | c :: _ =>
    if isDigit c then
      match appendDigits significandLimit significand 0 s with
      | (longer, count, rest) =>
        readFloatEnd isNegative longer (exponent - count) (afterDigits rest)
    else .error (.next .badNumber s)

/-- The number that has just an integer part. An integer below every 64-bit one is a float, and so
is the negative zero. -/
def integerNumber (isNegative : Bool) (significand : Nat) : Number :=
  if isNegative then
    if significand = 0 ∨ signedLimit < significand then .float (-(UInt64.ofNat significand).toFloat)
    else .negative significand
  else .natural significand

/-- Reads what may follow the integer digits. `exponent` counts the digits that the significand has
no room for. -/
def readNumberEnd (isNegative : Bool) (significand exponent : Nat) :
    List Char → Except Fault (Number × List Char)
  | [] =>
    if exponent = 0 then .ok (integerNumber isNegative significand, [])
    else finishFloat isNegative significand exponent []
  | c :: s =>
    if c = '.' then readFraction isNegative significand exponent s
    else if isExponentMark c then readExponent isNegative significand exponent s
    else if exponent = 0 then .ok (integerNumber isNegative significand, c :: s)
    else finishFloat isNegative significand exponent (c :: s)

def readMagnitude (isNegative : Bool) : List Char → Except Fault (Number × List Char)
  | [] => .error (.here .endInValue [])
  | c :: s =>
    if c = '0' then
      match s with
      | d :: _ =>
        if isDigit d then .error (.next .badNumber s) else readNumberEnd isNegative 0 0 s
      | [] => readNumberEnd isNegative 0 0 []
    else if isDigit c then
      match appendDigits significandLimit (c.toNat - 0x30) 0 s with
      | (significand, _, rest) =>
        readNumberEnd isNegative significand (rest.takeWhile isDigit).length (afterDigits rest)
    else .error (.next .badNumber (c :: s))

def numberFrom : List Char → Except Fault (Number × List Char)
  | '-' :: s => readMagnitude true s
  | s => readMagnitude false s

/-! ## Progress -/

theorem length_afterDigits (s : List Char) : (afterDigits s).length ≤ s.length :=
  (List.dropWhile_sublist _).length_le

theorem length_appendDigits (limit value count : Nat) (s : List Char) :
    (appendDigits limit value count s).2.2.length ≤ s.length := by
  induction s generalizing value count with
  | nil => simp [appendDigits]
  | cons c s ih =>
    simp only [appendDigits]
    split
    · exact Nat.le_succ_of_le (ih _ _)
    · exact Nat.le_refl _

theorem rest_of_finishFloat {isNegative : Bool} {significand : Nat} {exponent : Int}
    {s rest : List Char} {value : Number}
    (h : finishFloat isNegative significand exponent s = .ok (value, rest)) : rest = s := by
  unfold finishFloat at h
  split at h <;> simp_all

theorem length_readExponentDigits {isNegative shrinks : Bool} {significand : Nat}
    {exponent : Int} {s rest : List Char} {value : Number}
    (h : readExponentDigits isNegative significand exponent shrinks s = .ok (value, rest)) :
    rest.length ≤ s.length := by
  cases s with
  | nil => simp [readExponentDigits] at h
  | cons c s =>
    have bound := length_appendDigits exponentLimit (c.toNat - 0x30) 0 s
    simp only [readExponentDigits] at h
    split at h
    · split at h
      · rw [rest_of_finishFloat h]
        simp
      · next heq =>
        rw [heq] at bound
        simp only [List.length_cons] at bound ⊢
        split at h
        · split at h
          · simp only [Except.ok.injEq, Prod.mk.injEq] at h
            rw [← h.2]
            have := length_afterDigits ‹_›
            omega
          · simp at h
        · rw [rest_of_finishFloat h]
          simp
          omega
    · simp at h

theorem length_readExponent {isNegative : Bool} {significand : Nat} {exponent : Int}
    {s rest : List Char} {value : Number}
    (h : readExponent isNegative significand exponent s = .ok (value, rest)) :
    rest.length ≤ s.length := by
  unfold readExponent at h
  split at h
  · exact Nat.le_succ_of_le (length_readExponentDigits h)
  · exact Nat.le_succ_of_le (length_readExponentDigits h)
  · exact length_readExponentDigits h

theorem length_readFloatEnd {isNegative : Bool} {significand : Nat} {exponent : Int}
    {s rest : List Char} {value : Number}
    (h : readFloatEnd isNegative significand exponent s = .ok (value, rest)) :
    rest.length ≤ s.length := by
  unfold readFloatEnd at h
  split at h
  · exact Nat.le_of_eq (congrArg List.length (rest_of_finishFloat h))
  · split at h
    · exact Nat.le_succ_of_le (length_readExponent h)
    · exact Nat.le_of_eq (congrArg List.length (rest_of_finishFloat h))

theorem length_readFraction {isNegative : Bool} {significand : Nat} {exponent : Int}
    {s rest : List Char} {value : Number}
    (h : readFraction isNegative significand exponent s = .ok (value, rest)) :
    rest.length ≤ s.length := by
  have bound := length_appendDigits significandLimit significand 0 s
  unfold readFraction at h
  split at h
  · simp at h
  · split at h
    · exact Nat.le_trans (length_readFloatEnd h) (Nat.le_trans (length_afterDigits _) bound)
    · simp at h

theorem length_readNumberEnd {isNegative : Bool} {significand exponent : Nat}
    {s rest : List Char} {value : Number}
    (h : readNumberEnd isNegative significand exponent s = .ok (value, rest)) :
    rest.length ≤ s.length := by
  unfold readNumberEnd at h
  split at h
  · split at h
    · simp_all
    · exact Nat.le_of_eq (congrArg List.length (rest_of_finishFloat h))
  · split at h
    · exact Nat.le_succ_of_le (length_readFraction h)
    · split at h
      · exact Nat.le_succ_of_le (length_readExponent h)
      · split at h
        · simp only [Except.ok.injEq, Prod.mk.injEq] at h
          exact Nat.le_of_eq (congrArg List.length h.2.symm)
        · exact Nat.le_of_eq (congrArg List.length (rest_of_finishFloat h))

theorem length_readMagnitude {isNegative : Bool} {s rest : List Char} {value : Number}
    (h : readMagnitude isNegative s = .ok (value, rest)) : rest.length < s.length := by
  unfold readMagnitude at h
  split at h
  · simp at h
  · split at h
    · split at h
      · split at h
        · simp at h
        · exact Nat.lt_succ_of_le (length_readNumberEnd h)
      · exact Nat.lt_succ_of_le (length_readNumberEnd h)
    · split at h
      · exact Nat.lt_succ_of_le (Nat.le_trans (length_readNumberEnd h)
          (Nat.le_trans (length_afterDigits _) (length_appendDigits _ _ _ _)))
      · simp at h

theorem length_numberFrom {s rest : List Char} {value : Number}
    (h : numberFrom s = .ok (value, rest)) : rest.length < s.length := by
  unfold numberFrom at h
  split at h
  · exact Nat.lt_succ_of_lt (length_readMagnitude h)
  · exact length_readMagnitude h

/-- Reads a number from its sign or first digit on. -/
def readNumber (s : List Char) : Except Fault (Read Number s) :=
  Read.certify (numberFrom s) fun _ _ => length_numberFrom

end RoutePolicy.Json
