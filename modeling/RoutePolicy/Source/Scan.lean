import RoutePolicy.Route.Basic
import RoutePolicy.Text.Pieces

/-!
# Routes in a source text

A comment block is a run of lines that begin, after blanks, with two slashes. Every router line of a
block is a route, and all role lines of the block, before or after it, belong to it. The block ends
at the first line that is no comment, and nothing of it reaches the next one.
-/

namespace RoutePolicy.Source

/-! ## Annotation tags

A comment line carries at most one annotation: a tag that stands as a whole word, followed by its
value. Occurrences of a tag inside longer words are passed over and do not hide a later one. -/

/-- The tags, in the order in which a line is searched for them. -/
inductive Tag where
  | router
  | authRoles
  | forbiddenRoles
  deriving DecidableEq, Repr

def Tag.word : Tag → List Char
  | router => "@Router".toList
  | authRoles => "@AuthRoles".toList
  | forbiddenRoles => "@ForbiddenRoles".toList

def startsBlank : List Char → Bool
  | [] => true
  | c :: _ => Text.isBlank c

/-- The trimmed text behind the first occurrence of `word` as a whole word. `fresh` tells whether a
word may begin at the start of the text. -/
def valueFrom? (word : List Char) (fresh : Bool) : List Char → Option (List Char)
  | [] => none
  | c :: s =>
    match (if fresh then Text.afterStart? word (c :: s) else none) with
    | some rest =>
      if startsBlank rest then some (Text.trim rest) else valueFrom? word (Text.isBlank c) s
    | none => valueFrom? word (Text.isBlank c) s

def Tag.value? (tag : Tag) (comment : List Char) : Option (List Char) :=
  valueFrom? tag.word true comment

/-! ## Blocks -/

/-- The annotation values of the comment lines read so far, each list in line order. -/
structure Block where
  routers : List (List Char) := []
  authRoles : List (List Char) := []
  forbiddenRoles : List (List Char) := []
  deriving DecidableEq, Repr

namespace Block

/-- Adds what a comment line says. The first tag that the line carries decides. -/
def note (b : Block) (comment : List Char) : Block :=
  match Tag.router.value? comment with
  | some value => { b with routers := b.routers ++ [value] }
  | none =>
    match Tag.authRoles.value? comment with
    | some value => { b with authRoles := b.authRoles ++ [value] }
    | none =>
      match Tag.forbiddenRoles.value? comment with
      | some value => { b with forbiddenRoles := b.forbiddenRoles ++ [value] }
      | none => b

def routes (package file : String) (b : Block) : List Route :=
  b.routers.map fun router =>
    { routerLine := String.ofList router
      authLine := String.ofList ([','].intercalate b.authRoles)
      forbiddenLine := String.ofList ([','].intercalate b.forbiddenRoles)
      package := package
      file := file }

end Block

def comment? (line : List Char) : Option (List Char) :=
  Text.afterStart? ['/', '/'] (Text.trimStart line)

def declaredPackage? (line : List Char) : Option (List Char) :=
  (Text.afterStart? "package ".toList (Text.trim line)).bind fun rest =>
    (Text.firstWord? rest).map (Text.dropEndWhile (· == ';'))

/-- The routes of the lines that follow the comment lines of `block`. -/
def scanLines (package file : String) (block : Block) : List (List Char) → List Route
  | [] => block.routes package file
  | line :: lines =>
    match comment? line with
    | some comment => scanLines package file (block.note comment) lines
    | none => block.routes package file ++ scanLines package file {} lines

/-- The routes of a source text, not yet parsed. A text that declares no package belongs to
`packageHint`. -/
def scan (packageHint file text : String) : List Route :=
  let lines := Text.lines text.toList
  let package :=
    match lines.findSome? declaredPackage? with
    | some name => String.ofList name
    | none => packageHint
  scanLines package file {} lines

end RoutePolicy.Source
