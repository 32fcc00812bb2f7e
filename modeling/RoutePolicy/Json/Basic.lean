import RoutePolicy.Decimal
import RoutePolicy.Text.Quoted
import RoutePolicy.Text.Read

/-!
# Reading JSON texts

What all readers of JSON share: the faults that they stumble over, and the blanks between tokens.
-/

namespace RoutePolicy.Json

open Text (Read)

/-! ## Faults

A fault is what a reader stumbles over, the way from the whole text to the value that was being
read, and the place. The place is kept as the characters that were still unread, so that readers
need not count; line and column are found when the fault is shown. -/

/-- A value that stands where another kind of value is expected. -/
inductive Misfit where
  | null
  | boolean (b : Bool)
  | integer (i : Int)
  | float (x : Float)
  | text (s : List Char)
  | list
  | object

def Misfit.describe : Misfit → String
  | null => "null"
  | boolean b => "boolean `" ++ (if b then "true" else "false") ++ "`"
  | integer i => "integer `" ++ String.ofList (Decimal.ofInt i) ++ "`"
  | float x => "floating point `" ++ String.ofList (Decimal.ofFloat x) ++ "`"
  | text s => "string " ++ String.ofList (Text.quoted s)
  | list => "sequence"
  | object => "map"

inductive Problem where
  | endInValue
  | endInList
  | endInObject
  | endInText
  | noCommaInList
  | noCommaInObject
  | noColon
  | badLiteral
  | noValue
  | trailingComma
  | trailingCharacters
  | keyIsNoText
  | controlCharacter
  | badEscape
  | loneSurrogate
  | unpairedSurrogate
  | badNumber
  | numberOutOfRange
  | wrongType (found : Misfit) (expected : String)
  | wrongValue (found : Misfit) (expected : String)
  | missingMember (name : String)
  | repeatedMember (name : String)
  | tooShort (length : Nat) (expected : String)

def Problem.message : Problem → String
  | endInValue => "EOF while parsing a value"
  | endInList => "EOF while parsing a list"
  | endInObject => "EOF while parsing an object"
  | endInText => "EOF while parsing a string"
  | noCommaInList => "expected `,` or `]`"
  | noCommaInObject => "expected `,` or `\x7d`"
  | noColon => "expected `:`"
  | badLiteral => "expected ident"
  | noValue => "expected value"
  | trailingComma => "trailing comma"
  | trailingCharacters => "trailing characters"
  | keyIsNoText => "key must be a string"
  | controlCharacter => "control character (\\u0000-\\u001F) found while parsing a string"
  | badEscape => "invalid escape"
  | loneSurrogate => "lone leading surrogate in hex escape"
  | unpairedSurrogate => "unexpected end of hex escape"
  | badNumber => "invalid number"
  | numberOutOfRange => "number out of range"
  | wrongType found expected => "invalid type: " ++ found.describe ++ ", expected " ++ expected
  | wrongValue found expected => "invalid value: " ++ found.describe ++ ", expected " ++ expected
  | missingMember name => "missing field `" ++ name ++ "`"
  | repeatedMember name => "duplicate field `" ++ name ++ "`"
  | tooShort length expected =>
    "invalid length " ++ String.ofList (Decimal.digits length) ++ ", expected " ++ expected

/-- One step from a value to a value inside it. -/
inductive Step where
  /-- To an item of a list, counted from 0. -/
  | item (index : Nat)
  /-- To the value of a member of an object. -/
  | member (name : List Char)
  /-- Into an object, at a place that belongs to none of its members. -/
  | unnamed
  deriving DecidableEq, Repr

/-- A fault. `rest` is the text that was not yet read when it was noticed, and `ahead` is the number
of bytes of it that belong to the fault and are counted as read. -/
structure Fault where
  problem : Problem
  rest : List Char
  ahead : Nat := 0
  trail : List Step := []

namespace Fault

/-- A fault at the place that was reached. -/
def here (problem : Problem) (rest : List Char) : Fault := { problem, rest }

/-- A fault with the next byte, which is counted as read. -/
def next (problem : Problem) (rest : List Char) : Fault := { problem, rest, ahead := 1 }

/-- The same fault, seen from the value around the one that was being read. -/
def inside (step : Step) (f : Fault) : Fault := { f with trail := step :: f.trail }

end Fault

def within {α : Type} (step : Step) (result : Except Fault α) : Except Fault α :=
  match result with
  | .ok a => .ok a
  | .error f => .error (f.inside step)

/-! ### Showing a fault -/

def utf8 (s : List Char) : List UInt8 := s.flatMap String.utf8EncodeChar

/-- The bytes that a fault counts as read, in a text that ends with the fault's unread rest. -/
def Fault.readBytes (f : Fault) (whole : List Char) : List UInt8 :=
  utf8 (whole.take (whole.length - f.rest.length)) ++ (utf8 f.rest).take f.ahead

/-- The line after the bytes that were read, counted from 1. -/
def lineAfter (bytes : List UInt8) : Nat := bytes.count 10 + 1

/-- The number of bytes since the last newline. -/
def columnAfter (bytes : List UInt8) : Nat :=
  (bytes.reverse.takeWhile (fun b => b != 10)).length

def Fault.report (f : Fault) (whole : List Char) : String :=
  let bytes := f.readBytes whole
  f.problem.message ++ " at line " ++ String.ofList (Decimal.digits (lineAfter bytes)) ++
    " column " ++ String.ofList (Decimal.digits (columnAfter bytes))

/-- One step of a trail as text; a name is set off by a point from what stands before it. -/
def Step.text (isFirst : Bool) : Step → List Char
  | item index => '[' :: Decimal.digits index ++ [']']
  | member name => if isFirst then name else '.' :: name
  | unnamed => if isFirst then ['?'] else ['.', '?']

/-- A trail as text; the whole text itself is a point. -/
def trailText : List Step → String
  | [] => "."
  | step :: steps => String.ofList (step.text true ++ steps.flatMap (Step.text false))

/-! ## Tokens

Blanks between tokens are skipped; in JSON they are the space, the newline, the tab and the
carriage return. -/

def isBlank (c : Char) : Bool := c == ' ' || c == '\n' || c == '\t' || c == '\r'

def token? : (s : List Char) → Option (Read Char s)
  | [] => none
  | c :: s =>
    if isBlank c then (token? s).map (Read.cons c) else some (.one c c s)

def literal : List Char → List Char → Except Fault (List Char)
  | [], s => .ok s
  | _ :: _, [] => .error (.here .endInValue [])
  | w :: word, c :: s => if c = w then literal word s else .error (.next .badLiteral (c :: s))

theorem length_literal {word s rest : List Char} (h : literal word s = .ok rest) :
    rest.length ≤ s.length := by
  induction word generalizing s with
  | nil => simp [literal] at h; simp [h]
  | cons w word ih =>
    cases s with
    | nil => simp [literal] at h
    | cons c s =>
      simp only [literal] at h
      split at h
      · exact Nat.le_succ_of_le (ih h)
      · simp at h

end RoutePolicy.Json
