import RoutePolicy.Event
import RoutePolicy.FileTree.Lookup
import RoutePolicy.FileTree.Walk
import RoutePolicy.Source.Scan

/-!
# Scanning a tree

The files of a tree that have one of the wanted extensions are scanned in the order in which a walk
meets them. Directories whose name begins with a point, and those named `vendor` or `target`, are
not entered; the root itself is, whatever its name. A directory that is entered and a file that is
scanned are opened by their path, which may get too long for that with their depth; what is passed
over may have any path.
-/

namespace RoutePolicy.Source

open FileTree (Address Entries Node)

def entersDirectory (name : String) : Bool :=
  !(name.toList.head? == some '.' || name == "vendor" || name == "target")

/-- Tells whether a file of this name has one of the extensions, which are compared with the ASCII
lower-case form of its own. -/
def hasExtension (extensions : List String) (name : String) : Bool :=
  match Path.extension? name with
  | none => false
  | some extension => extensions.contains (String.ofList (extension.toList.map Char.toLower))

def isOpened (extensions : List String) : Address × Node → Bool
  | (_, .directory _) => true
  | (address, .file _) => hasExtension extensions (address.getLast?.getD "")
  | (_, .link _) => false

def opened (extensions : List String) (entries : Entries) : List (Address × Node) :=
  (FileTree.walkEntries entersDirectory [] entries).filter (isOpened extensions)

/-- The entries that are opened for a root. A root that is a file is scanned itself, at the empty
address; a root that is a link to a file holds nothing. -/
def entriesOf (t : FileTree) (extensions : List String) (root : String) :
    Except FileFault (List (Address × Node)) :=
  match t.locate .inspecting root with
  | .error fault => .error fault
  | .ok (_, .directory entries) => .ok (opened extensions entries)
  | .ok (_, .file bytes) =>
    if hasExtension extensions ((Path.fileName? root).getD "") then .ok [([], .file bytes)]
    else .ok []
  | .ok (_, .link _) =>
    match t.locate .reading root with
    | .error fault => .error fault
    | .ok (_, .directory entries) => .ok (opened extensions entries)
    | .ok _ => .ok []

/-- The name of the directory that holds a file, where that is not the root. -/
def packageHint (address : Address) : String := address.dropLast.getLast?.getD ""

def relativePath (address : Address) : String := String.intercalate "/" address

/-- The routes of the files among some entries, in order. The first entry whose path is too long and
the first file that is no text end the scan. -/
def scanEntries (root : String) : List (Address × Node) → Logged (Except Failure (List Route))
  | [] => ⟨.ok [], []⟩
  | (address, node) :: rest =>
    let path := Path.below root address
    if FileTree.pathLimit < path.utf8ByteSize then ⟨.error (.file path .nameTooLong), []⟩
    else
      match node with
      | .file bytes =>
        match String.fromUTF8? bytes with
        | none => ⟨.error (.file path .notUtf8), []⟩
        | some text =>
          let found := scan (packageHint address) (relativePath address) text
          ((scanEntries root rest).map (·.map (found ++ ·))).after
            [.scannedFile (relativePath address) found.length]
      | _ => scanEntries root rest

def completion (root : String) (files : Nat) (result : Except Failure (List Route)) : List Event :=
  match result with
  | .ok routes => [.scanComplete root files routes.length]
  | .error _ => []

def scanTree (t : FileTree) (extensions : List String) (root : String) :
    Logged (Except Failure (List Route)) :=
  match entriesOf t extensions root with
  | .error fault => ⟨.error (.file root fault), []⟩
  | .ok entries =>
    let scanned := scanEntries root entries
    let files := (FileTree.filesAmong entries).length
    ⟨scanned.value, scanned.events ++ completion root files scanned.value⟩

end RoutePolicy.Source
