import RoutePolicy.Decimal
import RoutePolicy.Environment
import RoutePolicy.Event
import RoutePolicy.Pattern.WellFormed
import RoutePolicy.Text.Alphanumeric
import RoutePolicy.Text.Pieces

/-!
# The log

Events are shown on one line each, as far as the log's filter lets them through.
-/

namespace RoutePolicy.CommandLine

/-! ## Log filters

Which events the log shows. A filter is a comma list of directives: a verbosity alone, or the
beginning of a source's name, perhaps with a field in `[{` and `}]` that an event has to have,
and perhaps with a verbosity behind an equals sign. Of the directives that an event meets the
most specific one decides, and of equally specific ones the last. A directive that names a span,
or asks for the value of a field, speaks of no event; but a value has to be a number or a pattern
all the same. A filter with a malformed directive does not count. -/

/-- How urgent an event has to be to be shown. -/
inductive Verbosity where
  | off
  | error
  | warn
  | info
  | debug
  | trace
  deriving DecidableEq, Repr

namespace Verbosity

/-- Tells whether events of a level are shown. No event is as urgent as an error. -/
def shows : Verbosity → Level → Bool
  | off, _ => false
  | error, _ => false
  | warn, level => level == .warn
  | info, level => level != .debug
  | debug, _ => true
  | trace, _ => true

def ofNumber? : Nat → Option Verbosity
  | 0 => some off
  | 1 => some error
  | 2 => some warn
  | 3 => some info
  | 4 => some debug
  | 5 => some trace
  | _ => none

/-- The verbosity of a name, in any ASCII case. -/
def ofName? (s : List Char) : Option Verbosity :=
  match String.ofList (s.map Char.toLower) with
  | "off" => some off
  | "error" => some error
  | "warn" => some warn
  | "info" => some info
  | "debug" => some debug
  | "trace" => some trace
  | _ => none

/-- The number that some ASCII digits stand for; a plus sign may be in front. -/
def number? (s : List Char) : Option Nat :=
  let ds := (Text.afterStart? ['+'] s).getD s
  if ds ≠ [] ∧ ds.all Char.isDigit then
    some (ds.foldl (fun n c => n * 10 + (c.toNat - 0x30)) 0)
  else none

def ofText? (s : List Char) : Option Verbosity :=
  match number? s with
  | some n => ofNumber? n
  | none => ofName? s

end Verbosity

structure FieldTest where
  name : List Char
  /-- Whether the directive asks for a value of the field. -/
  hasValue : Bool
  deriving DecidableEq, Repr

namespace FieldTest

/-- Tells whether a directive may ask for a value: numbers and patterns may be asked for. -/
def isValue (s : List Char) : Bool := Decimal.isNumeral s || Pattern.isWellFormed s

/-- The field that a text in a directive is. An equals sign sets the value off; what a second one
sets off does not count. -/
def ofText? (s : List Char) : Option FieldTest :=
  match s.splitOn '=' with
  | name :: value :: _ => if isValue value then some ⟨name, true⟩ else none
  | _ => some ⟨s, false⟩

end FieldTest

structure Directive where
  /-- What the name of an event's source has to begin with. -/
  target : Option (List Char) := none
  /-- Whether the directive names a span. -/
  namesSpan : Bool := false
  field : Option FieldTest := none
  verbosity : Verbosity := .trace
  deriving DecidableEq, Repr

namespace Directive

/-! ### Reading -/

/-- What was read of a directive. The parts that are not complete are told by their start. -/
inductive Stage where
  | nothing
  /-- A verbosity, or a source. -/
  | word
  | span (start : Nat)
  | field (start : Nat)
  | fieldEnd
  | spanEnd
  | verbosity (start : Nat)
  deriving DecidableEq, Repr

def opensWord (c : Char) : Bool := ['-', ':', '_'].contains c || Text.isAlphanumeric c

def part (whole : List Char) (start stop : Nat) : List Char :=
  (whole.drop start).take (stop - start)

/-- Reads one more character, which stands at `place`. Parts are cut out of `whole`. -/
def step? (whole : List Char) (place : Nat) (c : Char) (stage : Stage) (d : Directive) :
    Option (Stage × Directive) :=
  match stage with
  | .nothing =>
    if c = '[' then some (.span (place + 1), d)
    else if opensWord c then some (.word, d)
    else none
  | .word =>
    if c = '=' then some (.verbosity (place + 1), { d with target := some (part whole 0 place) })
    else if c = '[' then some (.span (place + 1), { d with target := some (part whole 0 place) })
    else some (.word, d)
  | .span start =>
    if c = ']' then some (.spanEnd, { d with namesSpan := true })
    else if c = '{' then
      some (.field (place + 1), { d with namesSpan := !(part whole start place).isEmpty })
    else some (.span start, d)
  | .field start =>
    if c = '}' then
      match part whole start place with
      | [] => none
      | text =>
        (FieldTest.ofText? text).map fun field => (.fieldEnd, { d with field := some field })
    else some (.field start, d)
  | .fieldEnd => if c = ']' then some (.spanEnd, d) else none
  | .spanEnd => if c = '=' then some (.verbosity (place + 1), d) else none
  | .verbosity start => some (.verbosity start, d)

def read? (whole : List Char) (place : Nat) (stage : Stage) (d : Directive) :
    List Char → Option (Stage × Directive)
  | [] => some (stage, d)
  | c :: s => (step? whole place c stage d).bind fun (stage, d) => read? whole (place + 1) stage d s

/-- The directive that a text is. Places are counted without the blanks around the text, and parts
are cut out of the text with its blanks: behind a blank nothing is named that an event has. -/
def ofText? (whole : List Char) : Option Directive :=
  match read? whole 0 .nothing {} (Text.trim whole) with
  | some (.word, _) =>
    match Verbosity.ofText? whole with
    | some v => some { verbosity := v }
    | none => some { target := some whole }
  | some (.verbosity start, d) =>
    match whole.drop start with
    | [] => some d
    | text => (Verbosity.ofText? text).map fun v => { d with verbosity := v }
  | some (.spanEnd, d) => some d
  | _ => none

/-! ### Choosing -/

def concernsEvents (d : Directive) : Bool := !d.namesSpan && !d.field.any (·.hasValue)

/-- Tells whether an event has a field of this name. The message counts as a field. -/
def hasField (e : Event) (name : List Char) : Bool :=
  String.ofList name == "message" || e.fields.any fun field => field.1.toList == name

def meets (d : Directive) (e : Event) : Bool :=
  d.concernsEvents && d.target.all (·.isPrefixOf e.source.toList) &&
    d.field.all fun field => hasField e field.name

/-- Tells whether a directive is at least as specific as another one that the same event meets: its
target is longer, or as long, and its field comes later by name, where none at all comes first. -/
def supersedes (d other : Directive) : Bool :=
  match d.target.map List.length, other.target.map List.length with
  | some _, none => true
  | none, some _ => false
  | size, otherSize =>
    if size ≠ otherSize then otherSize.getD 0 < size.getD 0
    else
      match d.field, other.field with
      | _, none => true
      | none, some _ => false
      | some field, some otherField => String.ofList otherField.name ≤ String.ofList field.name

end Directive

abbrev LogFilter := List Directive

namespace LogFilter

def deciding? (f : LogFilter) (e : Event) : Option Directive :=
  (f.filter (·.meets e)).foldl
    (fun best d => if best.all fun b => d.supersedes b then some d else best) none

def shows (f : LogFilter) (e : Event) : Bool :=
  match f.deciding? e with
  | some d => d.verbosity.shows e.level
  | none => false

/-- The filter that a text is. Empty pieces between its commas do not count. -/
def ofText? (s : String) : Option LogFilter :=
  ((s.toList.splitOn ',').filter fun piece => decide (piece ≠ [])).mapM Directive.ofText?

def variableName : String := "RUST_LOG"

/-- The filter that counts where the environment holds none. -/
def standard : LogFilter := [{ verbosity := .info }]

def ofEnvironment (e : Environment) : LogFilter :=
  ((e.value? variableName).bind ofText?).getD standard

end LogFilter

/-! ## Lines -/

def countText (n : Nat) : String := String.ofList (Decimal.digits n)

def labelText (s : String) : String := "\"" ++ s ++ "\""

def valueText : Event.Value → String
  | .text s => s
  | .label s => labelText s
  | .count n => countText n
  | .counts entries =>
    let shown := entries.map fun entry => labelText entry.1 ++ ": " ++ countText entry.2
    String.ofList ('{' :: (String.intercalate ", " shown).toList ++ ['}'])

/-- An event as a line: its level, its message and its fields. -/
def logLine (e : Event) : String :=
  String.intercalate " "
    (e.level.label :: e.message :: e.fields.map fun field => field.1 ++ "=" ++ valueText field.2)

def logLines (f : LogFilter) (events : List Event) : List String :=
  (events.filter f.shows).map logLine

end RoutePolicy.CommandLine
