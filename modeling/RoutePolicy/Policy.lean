import RoutePolicy.Event
import RoutePolicy.FileTree.Change
import RoutePolicy.Route.Fragments
import RoutePolicy.Rule.Reader

/-!
# Policies

A policy is a list of rules. It is merged from the rules of the routes that were found, written as a
JSON document and kept in a file.
-/

namespace RoutePolicy.Policy

open Json
open Text (Read)

/-! ## Merging

Rules for the same host, path and role key become one rule of the policy, whose methods are the
union of theirs. `merge` takes the rules in scan order: each one is united with the entry that it
belongs to or opens a new entry at the end. Entries are numbered from 1. -/

def sameEntry (a b : Rule) : Bool :=
  decide (a.host = b.host ∧ a.path = b.path ∧ a.working.roleKey = b.working.roleKey)

/-- An entry that holds one rule: the method tokens in their braced form. -/
def openEntry (r : Rule) : Rule := r.withMethods r.tokens

def unite (entry r : Rule) : Rule :=
  { entry with allowAnyone := entry.allowAnyone || r.allowAnyone }.withMethods
    (entry.working.methods ++ r.tokens)

/-- Adds a rule to the entries, and reports the entry that it was united with. -/
def add : List Rule → Rule → Logged (List Rule)
  | [], r => ⟨[openEntry r], []⟩
  | entry :: entries, r =>
    if sameEntry entry r then
      let united := unite entry r
      ⟨united :: entries, [.merged united.path united.method]⟩
    else (add entries r).map (entry :: ·)

def addAll (entries : List Rule) : List Rule → Logged (List Rule)
  | [] => ⟨entries, []⟩
  | r :: rs => (addAll (add entries r).value rs).after (add entries r).events

def numberFrom (next : Nat) : List Rule → List Rule
  | [] => []
  | r :: rs => { r with id := Int64.ofNat next } :: numberFrom (next + 1) rs

/-- Merges rules in scan order into the rules of a policy. -/
def merge (defaultHost : String) (rules : List Rule) : Logged (List Rule) :=
  (addAll [] ((Rule.annotateAll rules).map (Rule.withHost defaultHost))).map (numberFrom 1)

/-! ## Documents

A policy document is the indented JSON list of a policy's rules, with a newline at its end. It is
read up to the end of the list. A text that is no policy is refused with the way to the value at
fault and its place in the text. -/

def write (rules : List Rule) : List Char :=
  Layout.list (.indented 0) (rules.map (Rule.write (.indented 1))) ++ ['\n']

def toJson (rules : List Rule) : String := String.ofList (write rules)

def read (s : List Char) : Except Fault (Read (List Rule) s) := readList Rule.read s

def failureOf (whole : List Char) (f : Fault) : Failure :=
  .json ("at `" ++ trailText f.trail ++ "`: " ++ f.report whole)

def ofJson (text : String) : Except Failure (List Rule) :=
  match read text.toList with
  | .ok r => .ok r.value
  | .error f => .error (failureOf text.toList f)

/-! ## Files

The directories around a policy file are made first, and they stay where writing the file fails
after that. -/

/-- The result of an operation, and the tree that it leaves behind, also where it fails. -/
structure Stored (α : Type) where
  tree : FileTree
  result : Logged (Except Failure α)

def makeRoom (t : FileTree) (path : String) : FileTree × Option Failure :=
  match Path.parent? path with
  | none => (t, none)
  | some parent =>
    let change := t.makeDirectories parent
    (change.tree, change.fault.map (.file parent))

def store (t : FileTree) (path : String) (rules : List Rule) : Stored Unit :=
  match makeRoom t path with
  | (roomy, some failure) => ⟨roomy, ⟨.error failure, []⟩⟩
  | (roomy, none) =>
    let change := roomy.writeFile path (toJson rules).toUTF8
    match change.fault with
    | some fault => ⟨change.tree, ⟨.error (.file path fault), []⟩⟩
    | none => ⟨change.tree, ⟨.ok (), [.policyWritten path rules.length]⟩⟩

def load (t : FileTree) (path : String) : Except Failure (List Rule) :=
  match t.readText path with
  | .error fault => .error (.file path fault)
  | .ok text => ofJson text

end RoutePolicy.Policy
