/-!
# Reading steps

A reader takes the unread text and gives a value with the rest, which is always shorter: `Read`
carries the proof, so that loops over readers end. Hexadecimal digits are here because several
readers share them.
-/

namespace RoutePolicy.Text

/-- A value read from the start of `s`, and the text behind it. -/
structure Read (α : Type) (s : List Char) where
  value : α
  rest : List Char
  shorter : rest.length < s.length

namespace Read

variable {α β ε : Type} {s : List Char}

/-- A value that is told by the first character alone. -/
def one (value : α) (c : Char) (s : List Char) : Read α (c :: s) := ⟨value, s, Nat.lt_succ_self _⟩

/-- The same step, seen from a text with one more character in front. -/
def cons (c : Char) (r : Read α s) : Read α (c :: s) :=
  ⟨r.value, r.rest, Nat.lt_succ_of_lt r.shorter⟩

def after (first : Read β s) (r : Read α first.rest) : Read α s :=
  ⟨r.value, r.rest, Nat.lt_trans r.shorter first.shorter⟩

/-- A step that begins with a character that was read before. -/
def again (first : Read Char s) (r : Read α (first.value :: first.rest)) : Read α s :=
  ⟨r.value, r.rest, Nat.lt_of_lt_of_le r.shorter first.shorter⟩

def map (f : α → β) (r : Read α s) : Read β s := ⟨f r.value, r.rest, r.shorter⟩

/-- Joins the proof of progress to the result of a reader. -/
def certify (result : Except ε (α × List Char))
    (shorter : ∀ value rest, result = .ok (value, rest) → rest.length < s.length) :
    Except ε (Read α s) :=
  match result, shorter with
  | .ok (value, rest), shorter => .ok ⟨value, rest, shorter value rest rfl⟩
  | .error f, _ => .error f

/-- Joins the proof of progress to the result of a reader that gives no value. -/
def certifyRest (result : Except ε (List Char))
    (shorter : ∀ rest, result = .ok rest → rest.length < s.length) : Except ε (Read Unit s) :=
  match result, shorter with
  | .ok rest, shorter => .ok ⟨(), rest, shorter rest rfl⟩
  | .error f, _ => .error f

end Read

/-- Less of a text is left behind the first character that does not belong to a run. -/
theorem length_lt_of_dropWhile {p : Char → Bool} {s rest : List Char} {c : Char}
    (h : s.dropWhile p = c :: rest) : rest.length < s.length := by
  have := (List.dropWhile_sublist p (l := s)).length_le
  rw [h] at this
  exact this

/-! ## Hexadecimal digits

A digit is written in lower case and read in either. -/

/-- The lower-case hexadecimal digit of a number below sixteen. -/
def hexDigit (n : Nat) : Char := if n < 10 then Char.ofNat (0x30 + n) else Char.ofNat (0x57 + n)

def hexValue? (c : Char) : Option Nat :=
  if '0' ≤ c ∧ c ≤ '9' then some (c.toNat - 0x30)
  else if 'a' ≤ c ∧ c ≤ 'f' then some (c.toNat - 0x57)
  else if 'A' ≤ c ∧ c ≤ 'F' then some (c.toNat - 0x37)
  else none

end RoutePolicy.Text
