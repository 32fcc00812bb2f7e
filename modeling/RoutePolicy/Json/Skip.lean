import RoutePolicy.Json.Number
import RoutePolicy.Json.Text

/-!
# Passing over values

A member that a rule does not know has a value that is read for its form only. Containers may nest
to any depth: `skipFrom` keeps the brackets that are still open in a list, the innermost first, and
needs no stack of its own.
-/

namespace RoutePolicy.Json

open Text (Read)

/-! ## Numbers -/

def afterExponentDigits : List Char → Except Fault (List Char)
  | [] => .error (.here .badNumber [])
  | c :: s => if isDigit c then .ok (afterDigits s) else .error (.next .badNumber (c :: s))

def afterExponent : List Char → Except Fault (List Char)
  | '+' :: s => afterExponentDigits s
  | '-' :: s => afterExponentDigits s
  | s => afterExponentDigits s

def afterFloatEnd : List Char → Except Fault (List Char)
  | [] => .ok []
  | c :: s => if isExponentMark c then afterExponent s else .ok (c :: s)

def afterFraction : List Char → Except Fault (List Char)
  | [] => .error (.next .badNumber [])
  | c :: s =>
    if isDigit c then afterFloatEnd (afterDigits s) else .error (.next .badNumber (c :: s))

def afterNumberEnd : List Char → Except Fault (List Char)
  | [] => .ok []
  | c :: s => if c = '.' then afterFraction s else afterFloatEnd (c :: s)

def afterMagnitude : List Char → Except Fault (List Char)
  | [] => .error (.here .badNumber [])
  | c :: s =>
    if c = '0' then
      match s with
      | d :: _ => if isDigit d then .error (.next .badNumber s) else afterNumberEnd s
      | [] => .ok []
    else if isDigit c then afterNumberEnd (afterDigits s)
    else .error (.next .badNumber (c :: s))

def afterNumber : List Char → Except Fault (List Char)
  | '-' :: s => afterMagnitude s
  | s => afterMagnitude s

theorem length_afterExponentDigits {s rest : List Char} (h : afterExponentDigits s = .ok rest) :
    rest.length ≤ s.length := by
  unfold afterExponentDigits at h
  split at h
  · simp at h
  · split at h
    · simp only [Except.ok.injEq] at h
      rw [← h]
      exact Nat.le_succ_of_le (length_afterDigits _)
    · simp at h

theorem length_afterExponent {s rest : List Char} (h : afterExponent s = .ok rest) :
    rest.length ≤ s.length := by
  unfold afterExponent at h
  split at h
  · exact Nat.le_succ_of_le (length_afterExponentDigits h)
  · exact Nat.le_succ_of_le (length_afterExponentDigits h)
  · exact length_afterExponentDigits h

theorem length_afterFloatEnd {s rest : List Char} (h : afterFloatEnd s = .ok rest) :
    rest.length ≤ s.length := by
  unfold afterFloatEnd at h
  split at h
  · simp_all
  · split at h
    · exact Nat.le_succ_of_le (length_afterExponent h)
    · simp only [Except.ok.injEq] at h
      exact Nat.le_of_eq (congrArg List.length h.symm)

theorem length_afterFraction {s rest : List Char} (h : afterFraction s = .ok rest) :
    rest.length ≤ s.length := by
  unfold afterFraction at h
  split at h
  · simp at h
  · split at h
    · exact Nat.le_succ_of_le (Nat.le_trans (length_afterFloatEnd h) (length_afterDigits _))
    · simp at h

theorem length_afterNumberEnd {s rest : List Char} (h : afterNumberEnd s = .ok rest) :
    rest.length ≤ s.length := by
  unfold afterNumberEnd at h
  split at h
  · simp_all
  · split at h
    · exact Nat.le_succ_of_le (length_afterFraction h)
    · exact length_afterFloatEnd h

theorem length_afterMagnitude {s rest : List Char} (h : afterMagnitude s = .ok rest) :
    rest.length < s.length := by
  unfold afterMagnitude at h
  split at h
  · simp at h
  · split at h
    · split at h
      · split at h
        · simp at h
        · exact Nat.lt_succ_of_le (length_afterNumberEnd h)
      · simp_all
    · split at h
      · exact Nat.lt_succ_of_le
          (Nat.le_trans (length_afterNumberEnd h) (length_afterDigits _))
      · simp at h

theorem length_afterNumber {s rest : List Char} (h : afterNumber s = .ok rest) :
    rest.length < s.length := by
  unfold afterNumber at h
  split at h
  · exact Nat.lt_succ_of_lt (length_afterMagnitude h)
  · exact length_afterMagnitude h

/-! ## Values without parts -/

/-- Passes over a value that is no container, given its first character and what follows. -/
def afterScalar (c : Char) (s : List Char) : Except Fault (List Char) :=
  if c = 'n' then literal "ull".toList s
  else if c = 't' then literal "rue".toList s
  else if c = 'f' then literal "alse".toList s
  else if c = '-' ∨ isDigit c then afterNumber (c :: s)
  else if c = '"' then afterText s
  else .error (.next .noValue (c :: s))

theorem length_afterScalar {c : Char} {s rest : List Char} (h : afterScalar c s = .ok rest) :
    rest.length ≤ s.length := by
  unfold afterScalar at h
  split at h
  · exact length_literal h
  split at h
  · exact length_literal h
  split at h
  · exact length_literal h
  split at h
  · exact Nat.le_of_lt_succ (length_afterNumber h)
  split at h
  · exact Nat.le_of_lt (length_afterText h)
  · simp at h

def skipScalar (c : Char) (s : List Char) : Except Fault (Read Unit (c :: s)) :=
  Read.certifyRest (afterScalar c s) fun _ h => Nat.lt_succ_of_le (length_afterScalar h)

def skipText (s : List Char) : Except Fault (Read Unit s) :=
  Read.certifyRest (afterText s) fun _ => length_afterText

/-! ## Values of any depth -/

inductive Bracket where
  | list
  | object
  deriving DecidableEq, Repr

namespace Bracket

def closing : Bracket → Char
  | list => ']'
  | object => '}'

def unclosed : Bracket → Problem
  | list => .endInList
  | object => .endInObject

def noComma : Bracket → Problem
  | list => .noCommaInList
  | object => .noCommaInObject

end Bracket

/-- Where a reader stands that passes over a value. -/
inductive SkipState where
  /-- A value is next. -/
  | value
  /-- A container was just opened. -/
  | opened (b : Bracket)
  /-- A key and its value are next. -/
  | key
  /-- A value came to its end. -/
  | ended
  deriving DecidableEq, Repr

namespace SkipState

def part : Bracket → SkipState
  | .list => value
  | .object => key

/-- A state that may go on without reading anything weighs more. -/
def weight : SkipState → Nat
  | opened _ => 1
  | _ => 0

end SkipState

/-- Passes over the value that the reader stands in, and over all that the containers `opens` still
hold. Gives the text behind the last of them. -/
def skipFrom (state : SkipState) (opens : List Bracket) (s : List Char) :
    Except Fault (List Char) :=
  match state with
  | .value =>
    match token? s with
    | none => .error (.next .endInValue [])
    | some token =>
      if token.value = '[' then skipFrom (.opened .list) opens token.rest
      else if token.value = '{' then skipFrom (.opened .object) opens token.rest
      else
        match skipScalar token.value token.rest with
        | .error f => .error f
        | .ok r => skipFrom .ended opens r.rest
  | .opened b =>
    match token? s with
    | none => .error (.next b.unclosed [])
    | some token =>
      if token.value = b.closing then skipFrom .ended opens token.rest
      else skipFrom (.part b) (b :: opens) (token.value :: token.rest)
  | .key =>
    match token? s with
    | none => .error (.next .endInObject [])
    | some token =>
      if token.value = '"' then
        match skipText token.rest with
        | .error f => .error f
        | .ok r =>
          match token? r.rest with
          | none => .error (.next .endInObject [])
          | some colon =>
            if colon.value = ':' then skipFrom .value opens colon.rest
            else .error (.next .noColon (colon.value :: colon.rest))
      else .error (.next .keyIsNoText (token.value :: token.rest))
  | .ended =>
    match opens with
    | [] => .ok s
    | b :: outer =>
      match token? s with
      | none => .error (.next b.unclosed [])
      | some token =>
        if token.value = ',' then skipFrom (.part b) (b :: outer) token.rest
        else if token.value = b.closing then skipFrom .ended outer token.rest
        else .error (.next b.noComma (token.value :: token.rest))
termination_by 2 * s.length + state.weight
decreasing_by
  · have := token.shorter
    simp only [SkipState.weight]
    omega
  · have := token.shorter
    simp only [SkipState.weight]
    omega
  · have := token.shorter
    have := r.shorter
    simp only [SkipState.weight, List.length_cons] at *
    omega
  · have := token.shorter
    simp only [SkipState.weight]
    omega
  · have := token.shorter
    cases b <;> simp only [SkipState.weight, SkipState.part, List.length_cons] <;> omega
  · have := token.shorter
    have := r.shorter
    have := colon.shorter
    simp only [SkipState.weight]
    omega
  · have := token.shorter
    cases b <;> simp only [SkipState.weight, SkipState.part] <;> omega
  · have := token.shorter
    simp only [SkipState.weight]
    omega

theorem length_skipFrom {state : SkipState} {opens : List Bracket} {s rest : List Char}
    (h : skipFrom state opens s = .ok rest) :
    rest.length ≤ s.length ∧ (state = .value → rest.length < s.length) := by
  fun_induction skipFrom state opens s with
  | case2 _ _ token _ _ ih | case3 _ _ token _ _ _ ih | case7 _ _ _ token _ _ ih
  | case17 _ _ _ token _ _ ih | case18 _ _ _ token _ _ _ ih =>
    have := token.shorter
    have := (ih h).1
    exact ⟨by omega, fun _ => by omega⟩
  | case5 _ _ token _ _ _ r _ ih =>
    have := token.shorter
    have := r.shorter
    have := (ih h).1
    simp only [List.length_cons] at *
    exact ⟨by omega, fun _ => by omega⟩
  | case8 _ _ _ token _ _ ih =>
    have := token.shorter
    have := (ih h).1
    simp only [List.length_cons] at *
    exact ⟨by omega, fun hs => nomatch hs⟩
  | case12 _ _ token _ _ r _ colon _ _ ih =>
    have := token.shorter
    have := r.shorter
    have := colon.shorter
    have := (ih h).1
    exact ⟨by omega, fun _ => by omega⟩
  | case15 s => simp_all
  | case1 | case4 | case6 | case9 | case10 | case11 | case13 | case14 | case16 | case19 =>
    simp at h

/-- Passes over a value of any kind and depth. -/
def skipValue (s : List Char) : Except Fault (Read Unit s) :=
  Read.certifyRest (skipFrom .value [] s) fun _ h => (length_skipFrom h).2 rfl

end RoutePolicy.Json
