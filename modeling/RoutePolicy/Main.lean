import RoutePolicy.CommandLine.Run
import RoutePolicy.FileTree.Walk

/-!
# The program

Takes a picture of the tree below the working directory, runs the command on it, and carries out
what the command changed. Paths lead to places in that tree; a link that leads out of it leads
nowhere, and a file that cannot be read is not there.
-/

open RoutePolicy

namespace RoutePolicy.Program

/-- The place in the tree that a path of the machine stands for. -/
def placeBelow (root path : String) : String :=
  if path = root then "/"
  else
    match Text.afterStart? (root ++ "/").toList path.toList with
    | some rest => "/" ++ String.ofList rest
    | none => ""

/-- Adds the entries of the directory at an address, and all that is below them, to a tree. -/
partial def addEntries (root : String) (address : FileTree.Address)
    (entries : Array IO.FS.DirEntry) (t : FileTree) : IO FileTree := do
  let mut t := t
  for entry in entries do
    let there := address ++ [entry.fileName]
    try
      match (← entry.path.symlinkMetadata).type with
      | .file => t := t.put there (.file (← IO.FS.readBinFile entry.path))
      | .dir => t ← addEntries root there (← entry.path.readDir) (t.put there (.directory []))
      | .symlink =>
        let target ← try
            pure (placeBelow root (← IO.FS.realPath entry.path).toString)
          catch _ => pure ""
        t := t.put there (.link target)
      | .other => pure ()
    catch _ => pure ()
  return t

/-- Carries out one change below the working directory. -/
def carryOut : FileTree.Address × FileTree.Node → IO Unit
  | (address, .file bytes) => IO.FS.writeBinFile (Source.relativePath address) bytes
  | (address, .directory _) => IO.FS.createDir (Source.relativePath address)
  | (_, .link _) => pure ()

/-- The bindings of the variables that the program knows. -/
def environment : IO Environment := do
  let mut e : Environment := {}
  for name in CommandLine.LogFilter.variableName :: Settings.Variable.all.map (·.name) do
    if let some value := ← IO.getEnv name then
      e := e.bind name value
  return e

end RoutePolicy.Program

def main (arguments : List String) : IO UInt32 := do
  let directory ← IO.currentDir
  let root := (← IO.FS.realPath directory).toString
  let before ← Program.addEntries root [] (← directory.readDir) {}
  let (after, outcome) := CommandLine.run arguments (← Program.environment) before
  for line in outcome.log do
    IO.eprintln line
  for change in after.changesSince before do
    Program.carryOut change
  IO.print outcome.output
  IO.eprint outcome.report
  return outcome.exitCode
