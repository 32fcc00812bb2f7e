import RoutePolicy.Pattern.CharSet
import RoutePolicy.Text.Alphanumeric

/-!
# Well-formed patterns

A pattern is a choice between alternatives, and an alternative a sequence of parts: characters,
sets, places, groups and repetitions of the part before them. The reader keeps the groups that are
open and, of every complete part, the height of its tree. `isWellFormed` asks for groups that are
closed and for a tree of limited height.
-/

namespace RoutePolicy.Pattern

open Text (Read)

/-! ## The opening of groups

Behind an opening parenthesis and a question mark a group may get a name, in angle brackets, or
flags, which end with a colon. Flags may also stand alone in their parentheses, and then they
hold to the end of the group around them. Flags behind a hyphen are switched off. Nothing else
may follow the question mark: a pattern can not look around. -/

inductive Opening where
  /-- A mode that holds from there on. -/
  | mode (m : Mode)
  /-- A group in its own mode, perhaps with a name. -/
  | group (m : Mode) (name : Option (List Char))
  deriving DecidableEq, Repr

def isGroupName : List Char → Bool
  | [] => false
  | c :: s =>
    (c == '_' || Text.isAlphabetic c) &&
      s.all fun c => ['_', '.', '[', ']'].contains c || Text.isAlphanumeric c

def groupName? (s : List Char) : Option (Read (List Char) s) :=
  match h : s.dropWhile (· != '>') with
  | [] => none
  | _ :: rest =>
    let name := s.takeWhile (· != '>')
    if isGroupName name then some ⟨name, rest, Text.length_lt_of_dropWhile h⟩ else none

def flagLetters : List Char := ['i', 'm', 's', 'U', 'u', 'R', 'x']

/-- Tells whether flags are in order: no flag and no hyphen stands there twice, and something
follows the hyphen. -/
def areFlags (flags : List Char) : Bool :=
  flags.all (fun c => c == '-' || flagLetters.contains c) && decide flags.Nodup &&
    flags.getLast? != some '-'

/-- What flags make of a switch that one of them is for. -/
def switched (flags : List Char) (flag : Char) (old : Bool) : Bool :=
  if (flags.takeWhile (· != '-')).contains flag then true
  else if flags.contains flag then false
  else old

def Mode.switch (m : Mode) (flags : List Char) : Mode :=
  ⟨switched flags 'u' m.unicode, switched flags 'x' m.verbose⟩

/-- Reads flags and the colon or the parenthesis behind them. -/
def flags? (m : Mode) (s : List Char) : Option (Read Opening s) :=
  let flags := s.takeWhile fun c => c != ':' && c != ')'
  match h : s.dropWhile fun c => c != ':' && c != ')' with
  | [] => none
  | c :: rest =>
    if areFlags flags then
      if c = ':' then some ⟨.group (m.switch flags) none, rest, Text.length_lt_of_dropWhile h⟩
      else if flags ≠ [] then some ⟨.mode (m.switch flags), rest, Text.length_lt_of_dropWhile h⟩
      else none
    else none

/-- Reads what follows the question mark. -/
def markedOpening? (m : Mode) : (s : List Char) → Option (Read Opening s)
  | 'P' :: '<' :: s =>
    (groupName? s).map fun r => ((r.map fun name => .group m (some name)).cons '<').cons 'P'
  | '<' :: s => (groupName? s).map fun r => (r.map fun name => .group m (some name)).cons '<'
  | s => flags? m s

/-- Reads an opening behind its parenthesis, which is the character `c`. -/
def opening? (m : Mode) (c : Char) (s : List Char) : Option (Read Opening (c :: s)) :=
  match m.next? s with
  | none => none
  | some next =>
    if next.value = '?' then (markedOpening? m next.rest).map fun r => (next.after r).cons c
    else some (.one (.group m none) c s)

/-! ## Parts and groups -/

structure Part where
  /-- The height of its tree. -/
  height : Nat
  /-- Whether it may be repeated. Flags may not. -/
  repeatable : Bool := true
  deriving DecidableEq, Repr

/-- A group that is not complete, or the whole pattern. -/
structure OpenGroup where
  mode : Mode := {}
  /-- The heights of the complete alternatives. -/
  alternatives : List Nat := []
  /-- The parts of the last alternative, backwards. -/
  parts : List Part := []
  deriving DecidableEq, Repr

namespace OpenGroup

def add (g : OpenGroup) (part : Part) : OpenGroup := { g with parts := part :: g.parts }

def lastHeight (g : OpenGroup) : Nat := joined (g.parts.map Part.height)

/-- The group behind a bar. -/
def alternate (g : OpenGroup) : OpenGroup :=
  { g with alternatives := g.lastHeight :: g.alternatives, parts := [] }

def height (g : OpenGroup) : Nat := joined (g.lastHeight :: g.alternatives)

def repeated? (g : OpenGroup) : Option OpenGroup :=
  match g.parts with
  | ⟨height, true⟩ :: parts => some { g with parts := ⟨height + 1, true⟩ :: parts }
  | _ => none

end OpenGroup

structure State where
  group : OpenGroup := {}
  /-- The groups around it, the innermost first. -/
  outer : List OpenGroup := []
  /-- The names of the groups. -/
  names : List (List Char) := []
  deriving DecidableEq, Repr

namespace State

def add (state : State) (part : Part) : State := { state with group := state.group.add part }

/-- The state behind an opening. No two groups have one name. -/
def enter? (state : State) : Opening → Option State
  | .mode m => some { state with group := { state.group.add ⟨0, false⟩ with mode := m } }
  | .group m none => some { state with group := { mode := m }, outer := state.group :: state.outer }
  | .group m (some name) =>
    if state.names.contains name then none
    else some ⟨{ mode := m }, state.group :: state.outer, name :: state.names⟩

def leave? (state : State) : Option State :=
  match state.outer with
  | [] => none
  | around :: outer =>
    some { state with group := around.add ⟨state.group.height + 1, true⟩, outer }

end State

/-- Passes over the question mark behind a repetition, which is the character `c`. -/
def afterRepetition (state : State) (c : Char) : (s : List Char) → Read State (c :: s)
  | '?' :: s => (Read.one state '?' s).cons c
  | s => .one state c s

/-- Reads the next piece of a pattern, which begins with the character `c`. -/
def step? (state : State) (c : Char) (s : List Char) : Option (Read State (c :: s)) :=
  let m := state.group.mode
  if c = '(' then
    match opening? m c s with
    | none => none
    | some r => (state.enter? r.value).map fun state => r.map fun _ => state
  else if c = ')' then state.leave?.map fun state => .one state c s
  else if c = '|' then some (.one { state with group := state.group.alternate } c s)
  else if c = '[' then (set? m {} [] s).map fun r => (r.map fun h => state.add ⟨h, true⟩).cons c
  else if c = '\\' then (escape? m s).map fun r => (r.map fun _ => state.add ⟨0, true⟩).cons c
  else if ['?', '*', '+'].contains c then
    state.group.repeated?.map fun group => afterRepetition { state with group } c s
  else if c = '{' ∨ (c = '.' ∧ !m.unicode) then none
  else some (.one (state.add ⟨0, true⟩) c s)

def read? (state : State) (s : List Char) : Option State :=
  match state.group.mode.next? s with
  | none => some state
  | some next =>
    match step? state next.value next.rest with
    | none => none
    | some step => read? step.value (next.again step).rest
termination_by s.length
decreasing_by exact (next.again step).shorter

def heightLimit : Nat := 250

def isWellFormed (s : List Char) : Bool :=
  match read? {} s with
  | none => false
  | some state => state.outer.isEmpty && state.group.height ≤ heightLimit

end RoutePolicy.Pattern
