import RoutePolicy.FileTree.Lookup

/-!
# Changing a tree

Making directories, links and files by their paths. An operation may fail after it has changed
something, so each one gives the tree that it leaves behind beside the fault, if there was one.
-/

namespace RoutePolicy.FileTree

/-- The tree that an operation leaves behind, and whether it failed. -/
structure Change where
  tree : FileTree
  fault : Option FileFault := none

/-- The address at which a new entry goes for a path, where the entry is not there yet. A slash at
the end of the path does not matter. -/
def freeAddress (t : FileTree) (path : String) : Except FileFault Address :=
  match refusal? path with
  | some fault => .error fault
  | none =>
    match t.follow .inspecting linkBudget []
        ((Path.pieces path).reverse.dropWhile (· == "")).reverse with
    | .error fault => .error fault
    | .ok (.found _) => .error .alreadyExists
    | .ok (.vacant address) => .ok address

def makeDirectory (t : FileTree) (path : String) : Change :=
  match t.freeAddress path with
  | .error fault => ⟨t, some fault⟩
  | .ok address => ⟨t.put address (.directory []), none⟩

def ensureDirectory (t : FileTree) (path : String) : Change :=
  let change := t.makeDirectory path
  if change.fault = some .alreadyExists ∧ t.isDirectory path then ⟨t, none⟩ else change

/-- Makes the first of some directories, of which each is held by the next one. Those around it are
made only where one is missing. -/
def ensureChain (t : FileTree) : List String → Change
  | [] => ⟨t, none⟩
  | path :: around =>
    let change := t.ensureDirectory path
    if change.fault = some .notFound then
      let outer := t.ensureChain around
      match outer.fault with
      | some _ => outer
      | none => outer.tree.ensureDirectory path
    else change

def makeDirectories (t : FileTree) (path : String) : Change :=
  t.ensureChain (Path.chain path)

def makeLink (t : FileTree) (path target : String) : Change :=
  match t.freeAddress path with
  | .error fault => ⟨t, some fault⟩
  | .ok address => ⟨t.put address (.link target), none⟩

/-- Writes a file, in place of the file that is there. A link is followed, also where nothing is at
its end yet. -/
def writeFile (t : FileTree) (path : String) (bytes : ByteArray) : Change :=
  match t.resolve .writing path with
  | .error fault => ⟨t, some fault⟩
  | .ok (.vacant address) => ⟨t.put address (.file bytes), none⟩
  | .ok (.found address) =>
    match t.get? address with
    | some (.directory _) => ⟨t, some .isADirectory⟩
    | _ => ⟨t.put address (.file bytes), none⟩

/-- Removes what a path names, with everything below it; a link is removed and not followed. -/
def remove (t : FileTree) (path : String) : Change :=
  match t.locate .inspecting path with
  | .error fault => ⟨t, some fault⟩
  | .ok (address, _) => ⟨t.erase address, none⟩

end RoutePolicy.FileTree
