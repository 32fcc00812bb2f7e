import RoutePolicy.CommandLine.Arguments
import RoutePolicy.CommandLine.Log
import RoutePolicy.Environment
import RoutePolicy.Generate

/-!
# Running a command

A run is a function of the arguments, the environment and the tree below the working directory. It
gives what the program prints, its exit code and the tree that it leaves behind. A failure is told
with what was being done and with all its causes.

A command line that is refused ends the program with code 2 and nothing else: what would be said
about it is usage text, which is left out together with the help that may be asked for.
-/

namespace RoutePolicy.CommandLine

structure Outcome where
  exitCode : UInt32 := 0
  output : String := ""
  /-- The report of a failure. -/
  report : String := ""
  log : List String := []
  deriving DecidableEq, Repr

def versionLine : String := "grbac-gen 0.1.0\n"

/-- A text with each of its lines but the first moved to the right. -/
def hang (width : Nat) (text : String) : String :=
  String.ofList (text.toList.flatMap fun c =>
    if c = '\n' then c :: List.replicate width ' ' else [c])

def numberedCause (entry : String × Nat) : String :=
  "    " ++ countText entry.2 ++ ": " ++ hang 7 entry.1 ++ "\n"

/-- The causes of a failure; several causes are numbered from 0. -/
def causesText : List String → String
  | [cause] => "    " ++ hang 4 cause ++ "\n"
  | causes => String.join (causes.zipIdx.map numberedCause)

def failureReport (context : String) (e : Failure) : String :=
  "Error: " ++ context ++ "\n\nCaused by:\n" ++ causesText e.chain

def failed (context : String) (e : Failure) : Outcome :=
  { exitCode := 1, report := failureReport context e }

def Outcome.withEvents (o : Outcome) (e : Environment) (events : List Event) : Outcome :=
  { o with log := logLines (.ofEnvironment e) events }

def runGenerate (overrides : Settings.Overrides) (e : Environment) (t : FileTree) :
    FileTree × Outcome :=
  match Settings.resolve e.value? overrides with
  | .error failure => (t, failed "invalid configuration" failure)
  | .ok settings =>
    let run := generate settings t
    match run.result.value with
    | .error failure =>
      (run.tree,
        (failed ("failed to generate policy from " ++ settings.sourceDir) failure).withEvents e
          run.result.events)
    | .ok report =>
      let output :=
        "Wrote " ++ countText report.rules.length ++ " permissions to " ++ settings.output ++ "\n"
      (run.tree,
        Outcome.withEvents { output } e (run.result.events ++ [report.completion]))

def runCheck (file : String) (t : FileTree) : Outcome :=
  match Policy.load t file with
  | .error failure => failed ("invalid policy file " ++ file) failure
  | .ok rules => { output := countText rules.length ++ " permissions OK\n" }

/-- The environment with the bindings of the environment file, if the tree has one. -/
def effectiveEnvironment (e : Environment) (t : FileTree) : Environment :=
  match t.readBytes ".env" with
  | .ok bytes => e.addFile bytes
  | .error _ => e

/-- Runs the program. A command line that is refused, or that asks for help, ends it with code 2 and
shows nothing. -/
def run (arguments : List String) (e : Environment) (t : FileTree) : FileTree × Outcome :=
  match parse? arguments with
  | none => (t, { exitCode := 2 })
  | some .version => (t, { output := versionLine })
  | some (.check file) => (t, runCheck file t)
  | some (.generate overrides) => runGenerate overrides (effectiveEnvironment e t) t

end RoutePolicy.CommandLine
