import RoutePolicy.FileTree.Basic

/-!
# Walking a tree

A walk meets the entries below a directory in ascending order of their names, and a directory before
the entries that it holds. Links are met and not followed. The walk enters the directories whose
name it is told to enter. So the entries that a run made or changed are listed with each directory
before what it holds.
-/

namespace RoutePolicy.FileTree

mutual

/-- A node at an address, and all that a walk meets below it. -/
def Node.walk (enters : String → Bool) (address : Address) : Node → List (Address × Node)
  | .directory entries => (address, .directory entries) :: walkEntries enters address entries
  | .file bytes => [(address, .file bytes)]
  | .link target => [(address, .link target)]

def walkEntries (enters : String → Bool) (address : Address) : Entries → List (Address × Node)
  | [] => []
  | (name, .directory inner) :: rest =>
    (if enters name then (Node.directory inner).walk enters (address ++ [name]) else []) ++
      walkEntries enters address rest
  | (name, node) :: rest =>
    node.walk enters (address ++ [name]) ++ walkEntries enters address rest

end

def fileAt? : Address × Node → Option (Address × ByteArray)
  | (address, .file bytes) => some (address, bytes)
  | _ => none

def filesAmong (met : List (Address × Node)) : List (Address × ByteArray) := met.filterMap fileAt?

/-- An address as a path; a directory has a slash at its end. -/
def listed : Address × Node → String
  | (address, .directory _) => String.intercalate "/" address ++ "/"
  | (address, _) => String.intercalate "/" address

/-- The paths of all entries of a tree, in ascending order of their texts. -/
def listing (t : FileTree) : List String :=
  ((walkEntries (fun _ => true) [] t.entries).map listed).mergeSort fun a b => decide (a ≤ b)

/-! ## What changed -/

/-- Tells whether an entry is new, or a file with new bytes, compared with an earlier tree. -/
def isChanged (before : FileTree) : Address × Node → Bool
  | (address, .file bytes) =>
    match before.get? address with
    | some (.file old) => old.data != bytes.data
    | _ => true
  | (address, _) => (before.get? address).isNone

def changesSince (t before : FileTree) : List (Address × Node) :=
  (walkEntries (fun _ => true) [] t.entries).filter (isChanged before)

end RoutePolicy.FileTree
