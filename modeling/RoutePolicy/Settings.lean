import RoutePolicy.Failure
import RoutePolicy.Text.Pieces

/-!
# Settings

What a run scans and writes. Every setting has a default, may be set by an environment variable, and
may be overridden by an option of the command line. A variable that is blank counts as not set;
an option is taken as it is, save that extensions are always brought into their normal form.
-/

namespace RoutePolicy

structure Settings where
  /-- The root of the tree that is scanned. -/
  sourceDir : String := "."
  /-- The path of the policy file. -/
  output : String := "grbac_permissions.json"
  /-- The host of the rules that name none. -/
  defaultHost : String := "*"
  /-- The extensions of the files that are scanned, in lower case and without a point. -/
  extensions : List String := ["go"]
  /-- Whether the first route that cannot be parsed ends the run. -/
  strict : Bool := false
  deriving DecidableEq, Repr

namespace Settings

/-- The normal form of one extension: trimmed, without leading points, in ASCII lower case. -/
def normalExtension (piece : List Char) : List Char :=
  ((Text.trim piece).dropWhile (· == '.')).map Char.toLower

/-- The extensions of a comma list. `go`, `.go` and ` .GO ` are the same extension, and entries
of which nothing is left do not count. -/
def parseExtensions (raw : String) : List String :=
  (((raw.toList.splitOn ',').map normalExtension).filter fun e => decide (e ≠ [])).map
    String.ofList

/-- The value of a variable, trimmed. A blank value counts as none. -/
def nonBlank? (value : Option String) : Option String :=
  match value with
  | none => none
  | some s => if Text.trim s.toList = [] then none else some (String.ofList (Text.trim s.toList))

/-- A truth value: `true` or `1`, `false` or `0`, in any ASCII case. -/
def parseFlag? (raw : String) : Option Bool :=
  match String.ofList (raw.toList.map Char.toLower) with
  | "true" | "1" => some true
  | "false" | "0" => some false
  | _ => none

inductive Variable where
  | sourceDir
  | output
  | defaultHost
  | extensions
  | strict
  deriving DecidableEq, Repr

def Variable.name : Variable → String
  | sourceDir => "GRBAC_SOURCE_DIR"
  | output => "GRBAC_OUTPUT"
  | defaultHost => "GRBAC_DEFAULT_HOST"
  | extensions => "GRBAC_EXTENSIONS"
  | strict => "GRBAC_STRICT"

def Variable.all : List Variable := [sourceDir, output, defaultHost, extensions, strict]

def environmentExtensions (lookup : String → Option String) : Except Failure (List String) :=
  match nonBlank? (lookup Variable.extensions.name) with
  | none => .ok ({} : Settings).extensions
  | some raw =>
    match parseExtensions raw with
    | [] => .error (.configuration "GRBAC_EXTENSIONS must name at least one extension")
    | extensions => .ok extensions

def environmentStrict (lookup : String → Option String) : Except Failure Bool :=
  match nonBlank? (lookup Variable.strict.name) with
  | none => .ok ({} : Settings).strict
  | some raw =>
    match parseFlag? raw with
    | some strict => .ok strict
    | none => .error (.configuration "GRBAC_STRICT must be true, false, 1 or 0")

/-- The settings of an environment. Of two faults the one in the extensions is told. -/
def ofEnvironment (lookup : String → Option String) : Except Failure Settings :=
  match environmentExtensions lookup with
  | .error e => .error e
  | .ok extensions =>
    match environmentStrict lookup with
    | .error e => .error e
    | .ok strict =>
      let defaults : Settings := {}
      .ok
        { sourceDir := (nonBlank? (lookup Variable.sourceDir.name)).getD defaults.sourceDir
          output := (nonBlank? (lookup Variable.output.name)).getD defaults.output
          defaultHost := (nonBlank? (lookup Variable.defaultHost.name)).getD defaults.defaultHost
          extensions
          strict }

structure Overrides where
  sourceDir : Option String := none
  output : Option String := none
  defaultHost : Option String := none
  /-- The comma lists of extensions, in their order. -/
  extensions : List String := []
  strict : Bool := false
  deriving DecidableEq, Repr

/-- The settings with the options applied. Extension options that name nothing change nothing, and
strictness can only be switched on. -/
def override (s : Settings) (o : Overrides) : Settings :=
  { sourceDir := o.sourceDir.getD s.sourceDir
    output := o.output.getD s.output
    defaultHost := o.defaultHost.getD s.defaultHost
    extensions :=
      match o.extensions.flatMap parseExtensions with
      | [] => s.extensions
      | extensions => extensions
    strict := s.strict || o.strict }

/-- The settings of an environment with the options applied. A fault in the environment counts
whatever the options say. -/
def resolve (lookup : String → Option String) (o : Overrides) : Except Failure Settings :=
  (ofEnvironment lookup).map (·.override o)

end Settings

end RoutePolicy
