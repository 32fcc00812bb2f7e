/-!
# Failures

What can go wrong between a source tree and its policy file, with the texts shown to the user. A
failure has a kind, and counts of failures are kept per kind.
-/

namespace RoutePolicy

inductive FileFault where
  | notFound
  | notADirectory
  | alreadyExists
  | isADirectory
  | linkLoop
  | nameTooLong
  /-- A path holds the character NUL. -/
  | nulInPath
  | notUtf8
  /-- A refusal of the machine that the tree of this library does not know. -/
  | other (text : String)
  deriving DecidableEq, Repr

def FileFault.message : FileFault → String
  | notFound => "No such file or directory (os error 2)"
  | notADirectory => "Not a directory (os error 20)"
  | alreadyExists => "File exists (os error 17)"
  | isADirectory => "Is a directory (os error 21)"
  | linkLoop => "Too many levels of symbolic links (os error 40)"
  | nameTooLong => "File name too long (os error 36)"
  | nulInPath => "file name contained an unexpected NUL byte"
  | notUtf8 => "stream did not contain valid UTF-8"
  | other text => text

inductive Failure where
  /-- A route's router line is blank. -/
  | emptyRouterLine
  /-- A router line names no path and method. -/
  | unparsableRouterLine (line : String)
  | configuration (text : String)
  /-- The file system refused at a path. -/
  | file (path : String) (fault : FileFault)
  /-- A text is no policy. -/
  | json (text : String)
  deriving DecidableEq, Repr

namespace Failure

/-- The kinds of failures, in the order of their labels. -/
inductive Kind where
  | configuration
  | emptyRouterLine
  | file
  | json
  | unparsableRouterLine
  deriving DecidableEq, Repr

def Kind.label : Kind → String
  | configuration => "configuration"
  | emptyRouterLine => "empty_router_line"
  | file => "io"
  | json => "json"
  | unparsableRouterLine => "unparsable_router_line"

/-- Every kind, in ascending order of the labels. -/
def Kind.all : List Kind :=
  [configuration, emptyRouterLine, file, json, unparsableRouterLine]

theorem Kind.mem_all (k : Kind) : k ∈ Kind.all := by
  cases k <;> decide

def kind : Failure → Kind
  | emptyRouterLine => .emptyRouterLine
  | unparsableRouterLine _ => .unparsableRouterLine
  | configuration _ => .configuration
  | file _ _ => .file
  | json _ => .json

def message : Failure → String
  | emptyRouterLine => "empty permission raw router line"
  | unparsableRouterLine line => "can not parse router comment \"" ++ line ++ "\""
  | configuration text => "configuration error: " ++ text
  | file path fault => "io error at " ++ path ++ ": " ++ fault.message
  | json text => "json error: " ++ text

/-- The messages of a failure and of its cause, where it has one that is told apart. -/
def chain (e : Failure) : List String :=
  match e with
  | file _ fault => [e.message, fault.message]
  | _ => [e.message]

/-- How often each kind occurs, in the order of the labels, without the kinds that do not occur. -/
def tally (kinds : List Kind) : List (Kind × Nat) :=
  (Kind.all.map fun k => (k, kinds.count k)).filter fun entry => decide (entry.2 ≠ 0)

end Failure

end RoutePolicy
