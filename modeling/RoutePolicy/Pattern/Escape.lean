import RoutePolicy.Text.Pieces
import RoutePolicy.Text.Read

/-!
# Reading modes and escapes of patterns

A pattern is a regular expression over Unicode texts. Nothing is matched with one here, so that only
its form counts: which texts are patterns is told by readers that go through a text once and keep
what decides about the form of the rest. The texts stand in braces, so they hold no closing brace,
and what needs one, such as a counted repetition, is never complete.
-/

namespace RoutePolicy.Pattern

open Text (Read)

/-! ## Modes

Flags change how the text behind them is read. `Mode.next?` gives the next character that counts,
which in the verbose mode is behind blanks and comments. -/

structure Mode where
  /-- Whether the pattern speaks of characters, and not of bytes. -/
  unicode : Bool := true
  /-- Whether blanks and comments do not count. -/
  verbose : Bool := false
  deriving DecidableEq, Repr

/-- The text behind the blanks and the comments at its start. A comment begins with `#` and ends
with its line. -/
def afterBlanks : (inComment : Bool) → List Char → List Char
  | _, [] => []
  | true, c :: s => afterBlanks (c != '\n') s
  | false, c :: s =>
    if Text.isBlank c then afterBlanks false s
    else if c = '#' then afterBlanks true s
    else c :: s

theorem length_afterBlanks_le (inComment : Bool) (s : List Char) :
    (afterBlanks inComment s).length ≤ s.length := by
  fun_induction afterBlanks inComment s with
  | case1 => exact Nat.le_refl _
  | case2 c s ih => exact Nat.le_succ_of_le ih
  | case3 c s _ ih => exact Nat.le_succ_of_le ih
  | case4 s _ ih => exact Nat.le_succ_of_le ih
  | case5 => exact Nat.le_refl _

namespace Mode

def skip (m : Mode) (s : List Char) : List Char := if m.verbose then afterBlanks false s else s

theorem length_skip_le (m : Mode) (s : List Char) : (m.skip s).length ≤ s.length := by
  unfold skip
  split
  · exact length_afterBlanks_le false s
  · exact Nat.le_refl _

def next? (m : Mode) (s : List Char) : Option (Read Char s) :=
  match h : m.skip s with
  | [] => none
  | c :: rest => some ⟨c, rest, by have := m.length_skip_le s; rw [h] at this; exact this⟩

/-- The character that stands next for the eye: in the verbose mode behind blanks, but behind no
more of a comment than its sign. -/
def glance? (m : Mode) (s : List Char) : Option Char :=
  if m.verbose then
    match s.dropWhile Text.isBlank with
    | '#' :: s => (s.dropWhile Text.isBlank).head?
    | s => s.head?
  else s.head?

end Mode

/-- The height of a tree whose branches have these heights. A branch alone is the tree itself. -/
def joined : List Nat → Nat
  | [] => 0
  | [height] => height
  | height :: heights => heights.foldl max height + 1

/-! ## Escapes

What may follow a backslash in a pattern: the number of a character, a set or a place that has a
letter, or any ASCII character that is neither a letter nor a digit. The edges of words are not
known for Unicode. Where a pattern speaks of bytes it still has to match whole characters, and so
it can not name what is outside ASCII. -/

inductive Atom where
  | literal (c : Char)
  /-- Every character of a set. -/
  | set
  /-- A place between two characters. -/
  | place
  deriving DecidableEq, Repr

def digitCount? : Char → Option Nat
  | 'x' => some 2
  | 'u' => some 4
  | 'U' => some 8
  | _ => none

/-- Reads hexadecimal digits behind the character `c`. The digits before them have a value. -/
def hexNumber? (m : Mode) :
    (digits : Nat) → (value : Nat) → (c : Char) → (s : List Char) → Option (Read Nat (c :: s))
  | 0, value, c, s => some (.one value c s)
  | digits + 1, value, c, s =>
    match m.next? s with
    | none => none
    | some next =>
      match Text.hexValue? next.value with
      | none => none
      | some digit =>
        (hexNumber? m digits (value * 16 + digit) next.value next.rest).map fun r =>
          (next.again r).cons c

/-- The letters of the general categories, as far as one letter names them. -/
def categoryLetters : List Char := ['c', 'l', 'm', 'n', 'p', 's', 'z']

def controlOf? : Char → Option Char
  | 'a' => some '\x07'
  | 't' => some '\t'
  | 'n' => some '\n'
  | 'v' => some '\x0b'
  | 'f' => some '\x0c'
  | 'r' => some '\r'
  | _ => none

def letterAtom? (m : Mode) (c : Char) : Option Atom :=
  if ['d', 's', 'w'].contains c then some .set
  else if ['D', 'S', 'W'].contains c then if m.unicode then some .set else none
  else if ['A', 'z'].contains c then some .place
  else if ['b', 'B', '<', '>'].contains c then if m.unicode then none else some .place
  else
    match controlOf? c with
    | some control => some (.literal control)
    | none => if c.toNat < 0x80 ∧ !c.isAlphanum then some (.literal c) else none

def escape? (m : Mode) : (s : List Char) → Option (Read Atom s)
  | [] => none
  | c :: s =>
    match digitCount? c with
    | some digits =>
      match hexNumber? m digits 0 c s with
      | none => none
      | some r =>
        if r.value.isValidChar ∧ (m.unicode ∨ c ≠ 'x' ∨ r.value < 0x80) then
          some (r.map fun n => .literal (Char.ofNat n))
        else none
    | none =>
      if c = 'p' ∨ c = 'P' then
        match m.next? s with
        | none => none
        | some r =>
          if m.unicode ∧ categoryLetters.contains r.value.toLower then
            some ((r.map fun _ => .set).cons c)
          else none
      else (letterAtom? m c).map fun atom => .one atom c s

end RoutePolicy.Pattern
