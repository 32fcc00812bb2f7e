import RoutePolicy.Rule.Basic
import RoutePolicy.Text.Pieces

/-!
# Routes and their lines

A route is an annotated route of a source file: the raw text of its annotation lines, where it was
found, and the rule that is filled from the lines when the route is parsed. The lines have a grammar
of their own: a router line holds a path and a method, the path may hold parameters, and a role line
lists roles.
-/

namespace RoutePolicy

structure Route where
  /-- The text behind the router tag: a path and a method in brackets. -/
  routerLine : String := ""
  /-- The roles that may use the route, separated by commas. -/
  authLine : String := ""
  /-- The roles that may not use the route, separated by commas. -/
  forbiddenLine : String := ""
  /-- The package that the source text declares. -/
  package : String := ""
  /-- The path of the source file. -/
  file : String := ""
  tags : List String := []
  rule : Rule := {}
  deriving DecidableEq, Repr

/-! ## Role lines

A role line lists roles between commas. Blanks around a role and blank entries do not count. -/

/-- The role that stands for everyone, taken where an annotation authorizes nobody by name. -/
def anyRole : String := "*"

/-- The entries of a comma list, trimmed, without the blank ones. -/
def listedRoles (line : String) : List String :=
  (((line.toList.splitOn ',').map Text.trim).filter fun role => decide (role ≠ [])).map
    String.ofList

/-- The roles of a line. A line without roles gives the default one, unless that is empty. -/
def parseRoles (line default : String) : List String :=
  match listedRoles line with
  | [] => if default = "" then [] else [default]
  | roles => roles

/-! ## Router lines

A router line holds a path, blanks and a method in square brackets, somewhere in its text. The
leftmost slash from which all three can be read is taken; the path is as long as possible, which
loses nothing because no path character is a space, a tab or a bracket. -/

structure RouterLine where
  path : List Char
  method : List Char
  deriving DecidableEq, Repr

namespace RouterLine

def isWordChar (c : Char) : Bool := c.isAlphanum || c == '_'

/-- The characters that may follow the first slash of a path. -/
def isPathChar (c : Char) : Bool :=
  isWordChar c || ['.', '/', '-', '{', '}', '+', ':', '$'].contains c

def isGap (c : Char) : Bool := c == ' ' || c == '\t'

def readMethod? : List Char → Option (List Char)
  | '[' :: s =>
    match s.takeWhile isWordChar, s.dropWhile isWordChar with
    | c :: word, ']' :: _ => some (c :: word)
    | _, _ => none
  | _ => none

def readHere? : List Char → Option RouterLine
  | '/' :: s =>
    match s.dropWhile isPathChar with
    | c :: rest =>
      if isGap c then
        (readMethod? (rest.dropWhile isGap)).map fun method =>
          ⟨'/' :: s.takeWhile isPathChar, method⟩
      else none
    | [] => none
  | _ => none

/-- The first place in a text where path, gap and method can be read. -/
def find? : List Char → Option RouterLine
  | [] => none
  | c :: s => (readHere? (c :: s)).or (find? s)

end RouterLine

end RoutePolicy

namespace RoutePolicy.Parameters

/-! ## Path parameters

A parameter is written in braces and becomes `*` in a rule's path. An opening brace is closed by
the last closing brace that comes before the next opening one; one that is never closed stays. -/

/-- What follows the last closing brace that comes before the next opening brace. -/
def afterClosing? : List Char → Option (List Char)
  | [] => none
  | c :: s =>
    if c = '{' then none
    else (afterClosing? s).or (if c = '}' then some s else none)

theorem length_afterClosing? {s rest : List Char} (h : afterClosing? s = some rest) :
    rest.length < s.length := by
  induction s generalizing rest with
  | nil => simp [afterClosing?] at h
  | cons c s ih =>
    simp only [afterClosing?] at h
    split at h
    · simp at h
    · rcases Option.or_eq_some_iff.1 h with h | ⟨_, h⟩
      · exact Nat.lt_succ_of_lt (ih h)
      · split at h <;> simp_all

/-- Writes `*` for every parameter of a path. -/
def collapse : List Char → List Char
  | [] => []
  | c :: s =>
    if c = '{' then
      match _closed : afterClosing? s with
      | some rest => '*' :: collapse rest
      | none => c :: collapse s
    else c :: collapse s
termination_by s => s.length
decreasing_by
  · have := length_afterClosing? _closed
    simp; omega
  · simp
  · simp

end RoutePolicy.Parameters
