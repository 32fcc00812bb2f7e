import RoutePolicy.Failure
import RoutePolicy.FileTree.Basic
import RoutePolicy.Text.Pieces

/-!
# Following paths

A path is followed from the root of the tree, piece by piece and through links. Names have at most
255 bytes and paths at most 4095; a longer name is refused where it is looked up, a longer path at
once.
-/

namespace RoutePolicy.Path

/-! ## Paths as texts

A path is a text whose pieces are set off by slashes. Paths are shown as they were given; empty
pieces and single points matter only at the start, where they tell an absolute path or the
current directory. -/

def pieces (path : String) : List String :=
  (path.toList.splitOn '/').map String.ofList

/-- Tells whether a piece names nothing, so that it may be left out behind other pieces. -/
def isFiller (piece : String) : Bool := piece == "" || piece == "."

/-- The pieces of a path from the last one back, without fillers in last place. The first piece of
the path always stays. -/
def dropFillers : List String → List String
  | [] => []
  | [first] => [first]
  | piece :: before => if isFiller piece then dropFillers before else piece :: before

/-- The text of a path whose pieces are given from the last one back. The empty piece alone is the
root of everything. -/
def textOfReversed : List String → String
  | [""] => "/"
  | reversed => String.intercalate "/" reversed.reverse

/-- The path of the directory that holds what a path names. The empty path and the root have none; a
single piece lies in the directory with the empty path. -/
def parent? (path : String) : Option String :=
  match dropFillers (pieces path).reverse with
  | [] => none
  | [""] => none
  | [_] => some ""
  | _ :: before => some (textOfReversed (dropFillers before))

/-- The name that a path ends in. A path that ends in `..` names nothing of its own. -/
def fileName? (path : String) : Option String :=
  match dropFillers (pieces path).reverse with
  | [] => none
  | name :: _ => if isFiller name || name == ".." then none else some name

/-- The paths given by the first pieces of a path, the longest first, when the pieces are given
from the last one back. -/
def chainOfReversed : List String → List String
  | [] => []
  | piece :: before =>
    if isFiller piece && !before.isEmpty then chainOfReversed before
    else textOfReversed (piece :: before) :: chainOfReversed before

/-- A path and the paths of the directories around it, the innermost first. The directory with the
empty path is left out, since it is there already. -/
def chain (path : String) : List String :=
  if path = "" then [] else chainOfReversed (pieces path).reverse

/-- The path of an entry, given the path of a directory and the names that lead from there. -/
def below (root : String) (address : List String) : String :=
  match address with
  | [] => root
  | _ =>
    if root.toList.getLast? = some '/' then root ++ String.intercalate "/" address
    else root ++ "/" ++ String.intercalate "/" address

/-- The extension of a file name: what follows its last point. A name whose only point is its first
character has none. -/
def extension? (name : String) : Option String :=
  match (name.toList.splitOn '.').reverse with
  | [] => none
  | [_] => none
  | extension :: before =>
    if before = [[]] then none else some (String.ofList extension)

end RoutePolicy.Path

namespace RoutePolicy.FileTree

/-! ## Lookup

`..` at the root stays there. At most 40 links are followed on one way, so that circular links
are found out. -/

inductive Purpose where
  /-- To look at what a link leads to. -/
  | reading
  /-- To look at the entry itself, be it a link. -/
  | inspecting
  /-- To write a file, which need not be there yet. -/
  | writing
  deriving DecidableEq, Repr

inductive Spot where
  | found (address : Address)
  /-- Nothing is there, but the directory around it is. -/
  | vacant (address : Address)
  deriving DecidableEq, Repr

/-- Tells whether a file can not be written under the last name of a path: the path ends in a slash
or in a piece that is no name. -/
def namesNoFile (piece : String) (rest : List String) : Bool :=
  rest.all (· == "") && (Path.isFiller piece || piece == ".." || !rest.isEmpty)

/-- How far a path leads without following a link. -/
inductive Leg where
  | arrived (spot : Spot)
  | blocked (fault : FileFault)
  /-- A link in the directory at `here`, and the pieces behind it. -/
  | linked (here : Address) (target : String) (rest : List String)
  deriving DecidableEq, Repr

def nameLimit : Nat := 255

def pathLimit : Nat := 4095

/-- The fault of a path that is not even followed. -/
def refusal? (path : String) : Option FileFault :=
  if path.toList.contains '\x00' then some .nulInPath
  else if path = "" then some .notFound
  else if pathLimit < path.utf8ByteSize then some .nameTooLong
  else none

/-- Follows pieces of a path from the directory at `here` to their end or to the first link that has
to be followed. -/
def leg (t : FileTree) (purpose : Purpose) (here : Address) : List String → Leg
  | [] => .arrived (.found here)
  | piece :: rest =>
    if purpose = .writing ∧ namesNoFile piece rest then .blocked .isADirectory
    else if Path.isFiller piece then t.leg purpose here rest
    else if piece = ".." then t.leg purpose here.dropLast rest
    else if nameLimit < piece.utf8ByteSize then .blocked .nameTooLong
    else
      let there := here ++ [piece]
      match t.get? there with
      | none => if rest = [] then .arrived (.vacant there) else .blocked .notFound
      | some (.file _) => if rest = [] then .arrived (.found there) else .blocked .notADirectory
      | some (.directory _) => t.leg purpose there rest
      | some (.link target) =>
        if purpose = .inspecting ∧ rest = [] then .arrived (.found there)
        else .linked here target rest

def linkBudget : Nat := 40

/-- The directory from which the target of a link is followed. -/
def linkBase (here : Address) (target : String) : Address :=
  if target.toList.head? = some '/' then [] else here

/-- Follows pieces of a path from the directory at `here`, and at most `budget` links on the way. -/
def follow (t : FileTree) (purpose : Purpose) :
    (budget : Nat) → (here : Address) → (pieces : List String) → Except FileFault Spot
  | 0, here, pieces =>
    match t.leg purpose here pieces with
    | .arrived spot => .ok spot
    | .blocked fault => .error fault
    | .linked _ _ _ => .error .linkLoop
  | budget + 1, here, pieces =>
    match t.leg purpose here pieces with
    | .arrived spot => .ok spot
    | .blocked fault => .error fault
    | .linked here target rest =>
      if target = "" then .error .notFound
      else t.follow purpose budget (linkBase here target) (Path.pieces target ++ rest)

/-- Follows a path. The empty path leads nowhere. -/
def resolve (t : FileTree) (purpose : Purpose) (path : String) : Except FileFault Spot :=
  match refusal? path with
  | some fault => .error fault
  | none => t.follow purpose linkBudget [] (Path.pieces path)

def locate (t : FileTree) (purpose : Purpose) (path : String) :
    Except FileFault (Address × Node) :=
  match t.resolve purpose path with
  | .error fault => .error fault
  | .ok (.vacant _) => .error .notFound
  | .ok (.found address) =>
    match t.get? address with
    | some node => .ok (address, node)
    | none => .error .notFound

def readBytes (t : FileTree) (path : String) : Except FileFault ByteArray :=
  match t.locate .reading path with
  | .error fault => .error fault
  | .ok (_, .file bytes) => .ok bytes
  | .ok (_, .directory _) => .error .isADirectory
  | .ok (_, .link _) => .error .notFound

def readText (t : FileTree) (path : String) : Except FileFault String :=
  match t.readBytes path with
  | .error fault => .error fault
  | .ok bytes =>
    match String.fromUTF8? bytes with
    | some text => .ok text
    | none => .error .notUtf8

def isDirectory (t : FileTree) (path : String) : Bool :=
  match t.locate .reading path with
  | .ok (_, .directory _) => true
  | _ => false

end RoutePolicy.FileTree
