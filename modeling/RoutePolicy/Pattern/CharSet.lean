import RoutePolicy.Pattern.Escape

/-!
# Sets in brackets

A set lists characters, ranges, escapes, ASCII sets such as `[:alpha:]` and other sets in brackets;
`&&`, `--` and `~~` combine what stands before them with what follows. Hyphens at the start of a set
are members, and so is a closing bracket there. What is not in a set is not in ASCII alone, so that
a pattern that speaks of bytes can not take a complement.
-/

namespace RoutePolicy.Pattern

open Text (Read)

/-! ## Members -/

def asciiSetNames : List String :=
  ["alnum", "alpha", "ascii", "blank", "cntrl", "digit", "graph", "lower", "print", "punct",
    "space", "upper", "word", "xdigit"]

/-- Reads the name of an ASCII set and the end `:]` of the set. -/
def asciiSetName? (s : List Char) : Option (Read Unit s) :=
  match h : s.dropWhile (· != ':') with
  | ':' :: ']' :: rest =>
    if asciiSetNames.contains (String.ofList (s.takeWhile (· != ':'))) then
      some ⟨(), rest, Nat.lt_of_succ_lt (Text.length_lt_of_dropWhile h)⟩
    else none
  | _ => none

/-- Reads an ASCII set behind its opening bracket, and tells whether its complement is meant. -/
def asciiSet? : (s : List Char) → Option (Read Bool s)
  | ':' :: '^' :: s => (asciiSetName? s).map fun r => ((r.map fun _ => true).cons '^').cons ':'
  | ':' :: s => (asciiSetName? s).map fun r => (r.map fun _ => false).cons ':'
  | _ => none

def atom? (m : Mode) : (s : List Char) → Option (Read Atom s)
  | [] => none
  | c :: s => if c = '\\' then (escape? m s).map (Read.cons c) else some (.one (.literal c) c s)

/-- Tells whether an atom may be a member. -/
def Mode.admits (m : Mode) : Atom → Bool
  | .literal c => m.unicode || c.toNat < 0x80
  | .set => true
  | .place => false

/-- Tells whether two atoms are the ends of a range. -/
def Mode.admitsRange (m : Mode) : Atom → Atom → Bool
  | .literal first, .literal last => first ≤ last && m.admits (.literal last)
  | _, _ => false

/-- Reads the hyphen of a range. A hyphen before the end of the set or before another hyphen is
none. -/
def rangeHyphen? (m : Mode) (s : List Char) : Option (Read Char s) :=
  match m.next? s with
  | none => none
  | some next =>
    if next.value = '-' ∧ m.glance? next.rest ≠ some ']' ∧ m.glance? next.rest ≠ some '-' then
      some next
    else none

def rangeEnd? (m : Mode) (s : List Char) : Option (Read Atom s) :=
  match m.next? s with
  | none => none
  | some next => (atom? m (next.value :: next.rest)).map next.again

/-- Reads a range, or a member that is no set in brackets. -/
def member? (m : Mode) (s : List Char) : Option (Read Unit s) :=
  match atom? m s with
  | none => none
  | some first =>
    match rangeHyphen? m first.rest with
    | none => if m.admits first.value then some (first.map fun _ => ()) else none
    | some hyphen =>
      match rangeEnd? m hyphen.rest with
      | none => none
      | some last =>
        if m.admitsRange first.value last.value then
          some (first.after (hyphen.after (last.map fun _ => ())))
        else none

/-! ## Sets -/

inductive Extent where
  | nothing
  /-- The sign of the complement. -/
  | complement
  | hyphens
  | members
  deriving DecidableEq, Repr

structure OpenSet where
  extent : Extent := .nothing
  /-- The height of what the last operator combines with what follows. -/
  combined : Option Nat := none
  /-- The heights of the members behind the last operator. -/
  members : List Nat := []
  deriving DecidableEq, Repr

namespace OpenSet

def add (k : OpenSet) (height : Nat) (extent : Extent) : OpenSet :=
  { k with extent, members := height :: k.members }

/-- The height of the tree that the members and the operators are. -/
def height (k : OpenSet) : Nat :=
  match k.combined with
  | none => joined k.members
  | some combined => max combined (joined k.members) + 1

def combine (k : OpenSet) : OpenSet := { extent := .members, combined := some k.height }

end OpenSet

inductive SetState where
  /-- In a set, and in the sets around it. -/
  | inside (k : OpenSet) (outer : List OpenSet)
  /-- Behind a set of this height. -/
  | behind (height : Nat)
  deriving DecidableEq, Repr

/-- Reads the next piece of a set, which begins with the character `c`. -/
def setStep? (m : Mode) (k : OpenSet) (outer : List OpenSet) (c : Char) (s : List Char) :
    Option (Read SetState (c :: s)) :=
  if c = '^' ∧ k.extent = .nothing then
    if m.unicode then some (.one (.inside { k with extent := .complement } outer) c s) else none
  else if c = '-' ∧ k.extent ≠ .members then
    some (.one (.inside (k.add 0 .hyphens) outer) c s)
  else if c = ']' ∧ (k.extent = .nothing ∨ k.extent = .complement) then
    some (.one (.inside (k.add 0 .members) outer) c s)
  else if c = '[' then
    match asciiSet? s with
    | some r =>
      if r.value ∧ !m.unicode then none
      else some ((r.map fun _ => .inside (k.add 0 .members) outer).cons c)
    | none => some (.one (.inside {} ({ k with extent := .members } :: outer)) c s)
  else if c = ']' then
    match outer with
    | [] => some (.one (.behind (k.height + 1)) c s)
    | around :: outer => some (.one (.inside (around.add (k.height + 1) .members) outer) c s)
  else
    match s with
    | d :: rest =>
      if d = c ∧ ['&', '-', '~'].contains c then
        some ((Read.one (.inside k.combine outer) d rest).cons c)
      else (member? m (c :: d :: rest)).map (Read.map fun _ => .inside (k.add 0 .members) outer)
    | [] => none

/-- Reads a set to its end, and gives its height. -/
def set? (m : Mode) (k : OpenSet) (outer : List OpenSet) (s : List Char) : Option (Read Nat s) :=
  match m.next? s with
  | none => none
  | some next =>
    match setStep? m k outer next.value next.rest with
    | none => none
    | some step =>
      let r := next.again step
      match r.value with
      | .behind height => some (r.map fun _ => height)
      | .inside k outer => (set? m k outer r.rest).map r.after
termination_by s.length
decreasing_by exact r.shorter

end RoutePolicy.Pattern
