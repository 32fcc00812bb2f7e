/-!
# File trees

A file tree is what a directory holds: files, links and directories, each under a name. The entries
of every directory are kept in strictly ascending order of their names, so that a tree has one
form only and a walk meets the entries in that order. An entry is told by its address, the names
on the way to it from the root; `get?` looks at it, `put` and `erase` change it.
-/

namespace RoutePolicy

namespace FileTree

inductive Node where
  | file (bytes : ByteArray)
  | link (target : String)
  | directory (entries : List (String × Node))

/-- The entries of a directory, or of the tree's root. -/
abbrev Entries := List (String × Node)

/-- The names on the way from the root of a tree to an entry. -/
abbrev Address := List String

mutual

/-- Every directory at or below a node has its entries in order. -/
def Node.Ordered : Node → Prop
  | .directory entries => OrderedEntries entries
  | .file _ => True
  | .link _ => True

/-- The names ascend strictly, here and in every directory below. -/
def OrderedEntries : Entries → Prop
  | [] => True
  | (name, node) :: rest =>
    node.Ordered ∧ (∀ entry ∈ rest, name < entry.1) ∧ OrderedEntries rest

end

def entryNamed? (name : String) : Entries → Option Node
  | [] => none
  | (n, node) :: rest => if n = name then some node else entryNamed? name rest

/-- Puts a node under a name, in place of the one that stands there. -/
def putEntry (name : String) (node : Node) : Entries → Entries
  | [] => [(name, node)]
  | (n, old) :: rest =>
    if name < n then (name, node) :: (n, old) :: rest
    else if name = n then (name, node) :: rest
    else (n, old) :: putEntry name node rest

def eraseEntry (name : String) : Entries → Entries
  | [] => []
  | (n, node) :: rest => if n = name then rest else (n, node) :: eraseEntry name rest

def Node.get? : Node → Address → Option Node
  | node, [] => some node
  | .directory entries, name :: address =>
    match entryNamed? name entries with
    | some node => node.get? address
    | none => none
  | .file _, _ :: _ => none
  | .link _, _ :: _ => none

/-- Puts a node at an address below some entries. Nothing changes where no directory is there to
hold it. -/
def putAt (node : Node) : Address → Entries → Entries
  | [], entries => entries
  | [name], entries => putEntry name node entries
  | name :: next :: address, entries =>
    match entryNamed? name entries with
    | some (.directory inner) =>
      putEntry name (.directory (putAt node (next :: address) inner)) entries
    | _ => entries

def eraseAt : Address → Entries → Entries
  | [], entries => entries
  | [name], entries => eraseEntry name entries
  | name :: next :: address, entries =>
    match entryNamed? name entries with
    | some (.directory inner) =>
      putEntry name (.directory (eraseAt (next :: address) inner)) entries
    | _ => entries

/-! ## The order of the entries -/

theorem mem_putEntry {name : String} {node : Node} {entries : Entries} {entry : String × Node}
    (h : entry ∈ putEntry name node entries) : entry = (name, node) ∨ entry ∈ entries := by
  induction entries with
  | nil => simpa [putEntry] using h
  | cons head rest ih =>
    obtain ⟨n, old⟩ := head
    simp only [putEntry] at h
    split at h
    · simpa using h
    · split at h
      · rcases List.mem_cons.1 h with h | h
        · exact .inl h
        · exact .inr (List.mem_cons_of_mem _ h)
      · rcases List.mem_cons.1 h with h | h
        · exact .inr (h ▸ List.mem_cons_self)
        · rcases ih h with h | h
          · exact .inl h
          · exact .inr (List.mem_cons_of_mem _ h)

theorem mem_eraseEntry {name : String} {entries : Entries} {entry : String × Node}
    (h : entry ∈ eraseEntry name entries) : entry ∈ entries := by
  induction entries with
  | nil => simp [eraseEntry] at h
  | cons head rest ih =>
    obtain ⟨n, old⟩ := head
    simp only [eraseEntry] at h
    split at h
    · exact List.mem_cons_of_mem _ h
    · rcases List.mem_cons.1 h with h | h
      · exact h ▸ List.mem_cons_self
      · exact List.mem_cons_of_mem _ (ih h)

theorem orderedEntries_putEntry {name : String} {node : Node} {entries : Entries}
    (hn : node.Ordered) (he : OrderedEntries entries) :
    OrderedEntries (putEntry name node entries) := by
  induction entries with
  | nil => exact ⟨hn, by simp, trivial⟩
  | cons head rest ih =>
    obtain ⟨n, old⟩ := head
    simp only [OrderedEntries] at he
    simp only [putEntry]
    split
    · next hlt =>
      refine ⟨hn, fun entry hmem => ?_, he⟩
      rcases List.mem_cons.1 hmem with h | h
      · exact h ▸ hlt
      · exact String.lt_trans hlt (he.2.1 entry h)
    · next hle =>
      split
      · next heq => exact ⟨hn, heq ▸ he.2.1, he.2.2⟩
      · next hne =>
        refine ⟨he.1, fun entry hmem => ?_, ih he.2.2⟩
        rcases mem_putEntry hmem with h | h
        · have hle : n ≤ name := String.not_lt.1 hle
          rw [h]
          exact Decidable.byContradiction fun hge =>
            hne (String.le_antisymm (String.not_lt.1 hge) hle)
        · exact he.2.1 entry h

theorem orderedEntries_eraseEntry {name : String} {entries : Entries}
    (he : OrderedEntries entries) : OrderedEntries (eraseEntry name entries) := by
  induction entries with
  | nil => trivial
  | cons head rest ih =>
    obtain ⟨n, old⟩ := head
    simp only [OrderedEntries] at he
    simp only [eraseEntry]
    split
    · exact he.2.2
    · exact ⟨he.1, fun entry hmem => he.2.1 entry (mem_eraseEntry hmem), ih he.2.2⟩

theorem ordered_of_entryNamed? {name : String} {node : Node} {entries : Entries}
    (he : OrderedEntries entries) (h : entryNamed? name entries = some node) : node.Ordered := by
  induction entries with
  | nil => simp [entryNamed?] at h
  | cons head rest ih =>
    obtain ⟨n, old⟩ := head
    simp only [OrderedEntries] at he
    simp only [entryNamed?] at h
    split at h
    · exact Option.some.inj h ▸ he.1
    · exact ih he.2.2 h

theorem orderedEntries_putAt {node : Node} {address : Address} {entries : Entries}
    (hn : node.Ordered) (he : OrderedEntries entries) :
    OrderedEntries (putAt node address entries) := by
  fun_induction putAt node address entries with
  | case1 => exact he
  | case2 => exact orderedEntries_putEntry hn he
  | case3 name next address entries inner hfind ih =>
    exact orderedEntries_putEntry (ih (ordered_of_entryNamed? he hfind)) he
  | case4 => exact he

theorem orderedEntries_eraseAt {address : Address} {entries : Entries}
    (he : OrderedEntries entries) : OrderedEntries (eraseAt address entries) := by
  fun_induction eraseAt address entries with
  | case1 => exact he
  | case2 => exact orderedEntries_eraseEntry he
  | case3 name next address entries inner hfind ih =>
    exact orderedEntries_putEntry (ih (ordered_of_entryNamed? he hfind)) he
  | case4 => exact he

end FileTree

/-- A tree of files with its entries in order. -/
structure FileTree where
  entries : FileTree.Entries := []
  ordered : FileTree.OrderedEntries entries := by exact trivial

namespace FileTree

/-- The node at an address; the root is a directory. -/
def get? (t : FileTree) (address : Address) : Option Node :=
  (Node.directory t.entries).get? address

/-- The tree with a file or a link at an address, or an empty directory. -/
def put (t : FileTree) (address : Address) (node : Node) (hn : node.Ordered := by exact trivial) :
    FileTree :=
  ⟨putAt node address t.entries, orderedEntries_putAt hn t.ordered⟩

def erase (t : FileTree) (address : Address) : FileTree :=
  ⟨eraseAt address t.entries, orderedEntries_eraseAt t.ordered⟩

end FileTree

end RoutePolicy
