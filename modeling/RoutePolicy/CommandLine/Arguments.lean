import RoutePolicy.Settings

/-!
# Command lines

The program has two commands: `generate` writes a policy, `check` reads one. A command line that is
not of the form described here is refused as a whole. An argument that begins with a dash is an
option, unless it is the dash alone or stands behind `--`; it is never the value of an option.

The texts of help and of usage are left out, and so are the ways to ask for them: `help`, `--help`
and `-h`, alone or with a command, are of no form described here, and a command line with one of
them is refused like any other.
-/

namespace RoutePolicy.CommandLine

inductive Command where
  | version
  | generate (overrides : Settings.Overrides)
  | check (file : String)
  deriving DecidableEq, Repr

/-- The options of `generate` that take a value. -/
inductive ValueOption where
  | dir
  | out
  | host
  | ext
  deriving DecidableEq, Repr

/-- How an option is written, behind its two dashes. -/
def ValueOption.name : ValueOption → String
  | dir => "dir"
  | out => "out"
  | host => "host"
  | ext => "ext"

def isOption (argument : String) : Bool :=
  argument.toList.head? == some '-' && argument != "-"

/-- Gives an option its value. Paths may not be empty, and only extensions may be given again. -/
def setOption? (o : Settings.Overrides) (option : ValueOption) (value : String) :
    Option Settings.Overrides :=
  match option with
  | .dir =>
    if o.sourceDir.isSome || value == "" then none else some { o with sourceDir := some value }
  | .out => if o.output.isSome || value == "" then none else some { o with output := some value }
  | .host => if o.defaultHost.isSome then none else some { o with defaultHost := some value }
  | .ext => some { o with extensions := o.extensions ++ [value] }

/-- An argument that names an option which takes a value, together with the value that stands behind
an equals sign in the same argument. -/
def valueOption? (argument : String) : Option (ValueOption × Option String) :=
  [ValueOption.dir, .out, .host, .ext].findSome? fun option =>
    if argument = "--" ++ option.name then some (option, none)
    else
      let start := ("--" ++ option.name ++ "=").toList
      if start.isPrefixOf argument.toList then
        some (option, some (String.ofList (argument.toList.drop start.length)))
      else none

def readOverrides? (o : Settings.Overrides) : List String → Option Settings.Overrides
  | [] => some o
  | argument :: rest =>
    if argument = "--" then if rest = [] then some o else none
    else if argument = "--strict" then
      if o.strict then none else readOverrides? { o with strict := true } rest
    else
      match valueOption? argument, rest with
      | some (option, some value), rest =>
        (setOption? o option value).bind fun o => readOverrides? o rest
      | some (option, none), value :: rest =>
        if isOption value then none
        else (setOption? o option value).bind fun o => readOverrides? o rest
      | some (_, none), [] => none
      | none, _ => none

/-- The path of the policy that `check` reads: the only argument, which is not empty. -/
def readFile? : List String → Option String
  | [file] => if isOption file || file == "" then none else some file
  | ["--", file] => if file == "" then none else some file
  | [file, "--"] => if isOption file || file == "" then none else some file
  | _ => none

def parse? : List String → Option Command
  | "generate" :: rest => (readOverrides? {} rest).map .generate
  | "check" :: rest => (readFile? rest).map .check
  | first :: _ =>
    if first = "--version" ∨ ['-', 'V'].isPrefixOf first.toList then some .version else none
  | [] => none

end RoutePolicy.CommandLine
