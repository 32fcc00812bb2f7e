import RoutePolicy.Json.Skip
import RoutePolicy.Json.Text

/-!
# Values

Readers for the kinds of values that a rule is made of, and the layouts in which lists and objects
are written.
-/

namespace RoutePolicy.Json

open Text (Read)

/-! ## Layouts

A JSON text is written on one line without blanks, or indented: every part of a container then
has a line of its own, two spaces deeper than the container. An empty container is written on one
line in both layouts. -/

inductive Layout where
  | compact
  /-- Every part on its own line, for a container at the given depth. -/
  | indented (depth : Nat)
  deriving DecidableEq, Repr

namespace Layout

def lineStart (depth : Nat) : List Char := '\n' :: List.replicate (2 * depth) ' '

/-- The layout of the parts of a container. -/
def inner : Layout → Layout
  | compact => compact
  | indented depth => indented (depth + 1)

def container (l : Layout) (opening closing : Char) (parts : List (List Char)) : List Char :=
  match parts with
  | [] => [opening, closing]
  | _ =>
    match l with
    | compact => opening :: [','].intercalate parts ++ [closing]
    | indented depth =>
      opening :: lineStart (depth + 1) ++ (',' :: lineStart (depth + 1)).intercalate parts ++
        lineStart depth ++ [closing]

def colon : Layout → List Char
  | compact => [':']
  | indented _ => [':', ' ']

def list (l : Layout) (items : List (List Char)) : List Char := l.container '[' ']' items

/-- An object, given the names of its members and their values as text. -/
def object (l : Layout) (members : List (List Char × List Char)) : List Char :=
  l.container '{' '}' (members.map fun m => encode m.1 ++ l.colon ++ m.2)

end Layout

/-! ## Typed values

Readers for the kinds of values that a rule is made of. Each one skips the blanks before the
value. A value of another kind is first read to its end, so that a fault inside it is noticed
before the fault that it is there at all; only containers are left unread. -/

def Number.misfit : Number → Misfit
  | natural n => .integer n
  | negative n => .integer (-n)
  | float x => .float x

/-- Reads the rest of a word that stands where another kind of value is expected. -/
def wordFault (misfit : Misfit) (expected : String) (word s : List Char) : Fault :=
  match literal word s with
  | .error f => f
  | .ok rest => .here (.wrongType misfit expected) rest

/-- The fault of a value that is not of the expected kind, given its first character and what
follows. -/
def misfitFault (expected : String) (c : Char) (s : List Char) : Fault :=
  if c = 'n' then wordFault .null expected "ull".toList s
  else if c = 't' then wordFault (.boolean true) expected "rue".toList s
  else if c = 'f' then wordFault (.boolean false) expected "alse".toList s
  else if c = '-' ∨ isDigit c then
    match readNumber (c :: s) with
    | .error f => f
    | .ok r => .here (.wrongType r.value.misfit expected) r.rest
  else if c = '"' then
    match readText s with
    | .error f => f
    | .ok r => .here (.wrongType (.text r.value) expected) r.rest
  else if c = '[' then .here (.wrongType .list expected) (c :: s)
  else if c = '{' then .here (.wrongType .object expected) (c :: s)
  else .next .noValue (c :: s)

def readString (s : List Char) : Except Fault (Read String s) :=
  match token? s with
  | none => .error (.next .endInValue [])
  | some token =>
    if token.value = '"' then
      (readText token.rest).map fun r => token.after (r.map String.ofList)
    else .error (misfitFault "a string" token.value token.rest)

def readBooleanWord (b : Bool) (word : List Char) {s : List Char} (token : Read Char s) :
    Except Fault (Read Bool s) :=
  Read.certify ((literal word token.rest).map fun rest => (b, rest)) fun _ rest h => by
    cases hw : literal word token.rest with
    | error f => rw [hw] at h; simp [Except.map] at h
    | ok t =>
      rw [hw] at h
      simp only [Except.map, Except.ok.injEq, Prod.mk.injEq] at h
      exact h.2 ▸ Nat.lt_of_le_of_lt (length_literal hw) token.shorter

def readBoolean (s : List Char) : Except Fault (Read Bool s) :=
  match token? s with
  | none => .error (.next .endInValue [])
  | some token =>
    if token.value = 't' then readBooleanWord true "rue".toList token
    else if token.value = 'f' then readBooleanWord false "alse".toList token
    else .error (misfitFault "a boolean" token.value token.rest)

/-- The 64-bit integer that a number is, or the problem that it is none. -/
def Number.toInt64 : Number → Except Problem Int64
  | natural n =>
    if n < signedLimit then .ok (Int64.ofNat n) else .error (.wrongValue (.integer n) "i64")
  | negative n => .ok (Int64.ofInt (-n))
  | float x => .error (.wrongType (.float x) "i64")

def readInt64 (s : List Char) : Except Fault (Read Int64 s) :=
  match token? s with
  | none => .error (.next .endInValue [])
  | some token =>
    if token.value = '-' ∨ isDigit token.value then
      match readNumber (token.value :: token.rest) with
      | .error f => .error f
      | .ok r =>
        match r.value.toInt64 with
        | .ok i => .ok (token.again (r.map fun _ => i))
        | .error problem => .error (.here problem r.rest)
    else .error (misfitFault "i64" token.value token.rest)

/-! ### Lists -/

/-- The first character of the next item of a list, or the end of the list. -/
inductive ItemStart (s : List Char) where
  | done (closing : Read Char s)
  | item (first : Read Char s)

/-- Looks for the next item of a list, behind its opening bracket or behind an item. -/
def itemStart (isFirst : Bool) (s : List Char) : Except Fault (ItemStart s) :=
  match token? s with
  | none => .error (.next .endInList [])
  | some token =>
    if token.value = ']' then .ok (.done token)
    else if isFirst then .ok (.item token)
    else if token.value = ',' then
      match token? token.rest with
      | none => .error (.next .endInValue [])
      | some first =>
        if first.value = ']' then .error (.next .trailingComma (first.value :: first.rest))
        else .ok (.item (token.after first))
    else .error (.next .noCommaInList (token.value :: token.rest))

/-- Reads the items of a list from number `index` on, and the closing bracket. -/
def readItems {α : Type} (item : (s : List Char) → Except Fault (Read α s)) (index : Nat)
    (s : List Char) : Except Fault (Read (List α) s) :=
  match itemStart (index == 0) s with
  | .error f => .error f
  | .ok (.done closing) => .ok (closing.map fun _ => [])
  | .ok (.item first) =>
    match within (.item index) (item (first.value :: first.rest)) with
    | .error f => .error f
    | .ok r =>
      match readItems item (index + 1) (first.again r).rest with
      | .error f => .error f
      | .ok items => .ok ((first.again r).after (items.map (r.value :: ·)))
termination_by s.length
decreasing_by exact (first.again r).shorter

def readList {α : Type} (item : (s : List Char) → Except Fault (Read α s)) (s : List Char) :
    Except Fault (Read (List α) s) :=
  match token? s with
  | none => .error (.next .endInValue [])
  | some token =>
    if token.value = '[' then
      (readItems item 0 token.rest).map token.after
    else .error (misfitFault "a sequence" token.value token.rest)

end RoutePolicy.Json
