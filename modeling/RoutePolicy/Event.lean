import RoutePolicy.Failure

/-!
# Events

Every step reports what it did as a list of events beside its result, also where it fails. An event
has a level, a message and named values; how they are shown is up to the reader of the list.
-/

namespace RoutePolicy

/-- The levels of events, from the least to the most urgent. -/
inductive Level where
  | debug
  | info
  | warn
  deriving DecidableEq, Repr

def Level.label : Level → String
  | debug => "DEBUG"
  | info => "INFO"
  | warn => "WARN"

inductive Event where
  /-- A route was found whose router line is blank. -/
  | emptyRouterLine (package file : String)
  /-- A route that cannot be parsed is left out. -/
  | skipped (file : String) (failure : Failure)
  /-- A rule was united with an earlier one, whose path and new method text are told. -/
  | merged (path method : String)
  | scannedFile (file : String) (routes : Nat)
  | scanComplete (root : String) (files routes : Nat)
  | policyWritten (path : String) (rules : Nat)
  /-- A whole run came to its end. -/
  | finished (scanned parsed : Nat) (skips : List (Failure.Kind × Nat)) (rules : Nat)
  deriving DecidableEq, Repr

inductive Event.Value where
  | text (s : String)
  /-- A label, which is shown in quotes. -/
  | label (s : String)
  | count (n : Nat)
  | counts (entries : List (String × Nat))
  deriving DecidableEq, Repr

namespace Event

def level : Event → Level
  | emptyRouterLine .. => .warn
  | skipped .. => .warn
  | merged .. => .debug
  | scannedFile .. => .debug
  | scanComplete .. => .info
  | policyWritten .. => .info
  | finished .. => .info

def message : Event → String
  | emptyRouterLine .. => "empty permission raw router line"
  | skipped .. => "skipping permission"
  | merged .. => "merged permission"
  | scannedFile .. => "scanned file"
  | scanComplete .. => "scan complete"
  | policyWritten .. => "policy written"
  | finished .. => "generation finished"

/-- The part of the program that reports an event, by the name under which the log may be asked for
it. -/
def source : Event → String
  | emptyRouterLine .. => "grbac_gen::models::permission"
  | skipped .. => "grbac_gen::generate"
  | merged .. => "grbac_gen::grouping"
  | scannedFile .. => "grbac_gen::scanner"
  | scanComplete .. => "grbac_gen::scanner"
  | policyWritten .. => "grbac_gen::policy"
  | finished .. => "grbac_gen"

/-- The named values of an event, in the order in which they are shown. -/
def fields : Event → List (String × Value)
  | emptyRouterLine package file => [("pkg", .text package), ("filepath", .text file)]
  | skipped file failure =>
    [("filepath", .text file), ("kind", .label failure.kind.label),
      ("error", .text failure.message)]
  | merged path method => [("path", .text path), ("method", .text method)]
  | scannedFile file routes => [("file", .text file), ("routes", .count routes)]
  | scanComplete root files routes =>
    [("root", .text root), ("files", .count files), ("routes", .count routes)]
  | policyWritten path rules => [("path", .text path), ("permissions", .count rules)]
  | finished scanned parsed skips rules =>
    [("scanned", .count scanned), ("parsed", .count parsed),
      ("skipped", .counts (skips.map fun entry => (entry.1.label, entry.2))),
      ("permissions", .count rules)]

end Event

/-- A result together with the events of the step that gave it. -/
structure Logged (α : Type) where
  value : α
  events : List Event := []

namespace Logged

variable {α β : Type}

def map (f : α → β) (a : Logged α) : Logged β := ⟨f a.value, a.events⟩

/-- Puts the events of an earlier step in front. -/
def after (earlier : List Event) (a : Logged α) : Logged α := ⟨a.value, earlier ++ a.events⟩

end Logged

end RoutePolicy
