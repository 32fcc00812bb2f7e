import Mathlib.Data.List.Sort
import RoutePolicy.FileTree.Walk
import RoutePolicy.Proofs.FileTree.Entries

/-!
# What a walk meets

A walk meets what can be reached through directories that it enters (`mem_walkEntries`), in
ascending order of the addresses (`pairwise_walkEntries`). So two walks that meet the same entries
meet them in the same order.
-/

namespace RoutePolicy.FileTree

/-- The names of the directories that are entered to meet a node: those on the way, and its own
where it is a directory. -/
def Node.way (node : Node) (address : Address) : Address :=
  match node with
  | .directory _ => address
  | _ => address.dropLast

variable {enters : String → Bool} {base address : Address} {name : String} {node : Node}
  {inner rest entries : Entries}

/-- Induction over the entries of a directory and of the directories below it. -/
theorem entries_induction {motive : Entries → Prop} (nil : motive [])
    (directory : ∀ name inner rest, motive inner → motive rest →
      motive ((name, .directory inner) :: rest))
    (leaf : ∀ name node rest, node.kind ≠ .directory → motive rest →
      motive ((name, node) :: rest)) : ∀ entries, motive entries
  | [] => nil
  | (name, .directory inner) :: rest =>
    directory name inner rest (entries_induction nil directory leaf inner)
      (entries_induction nil directory leaf rest)
  | (name, .file bytes) :: rest =>
    leaf name (.file bytes) rest (by simp [Node.kind]) (entries_induction nil directory leaf rest)
  | (name, .link target) :: rest =>
    leaf name (.link target) rest (by simp [Node.kind]) (entries_induction nil directory leaf rest)

theorem walkEntries_directory :
    walkEntries enters base ((name, .directory inner) :: rest) =
      (if enters name then
        (base ++ [name], .directory inner) :: walkEntries enters (base ++ [name]) inner
      else []) ++ walkEntries enters base rest := by
  rw [walkEntries, Node.walk]

theorem walkEntries_leaf (h : node.kind ≠ .directory) :
    walkEntries enters base ((name, node) :: rest) =
      (base ++ [name], node) :: walkEntries enters base rest := by
  cases node with
  | directory => exact absurd rfl h
  | file => simp only [walkEntries, Node.walk, List.singleton_append]
  | link => simp only [walkEntries, Node.walk, List.singleton_append]

theorem walkEntries_eq_map (enters : String → Bool) (base : Address) (entries : Entries) :
    walkEntries enters base entries =
      (walkEntries enters [] entries).map fun met => (base ++ met.1, met.2) := by
  induction entries using entries_induction generalizing base with
  | nil => simp [walkEntries]
  | directory name inner rest inner_ih ih =>
    rw [walkEntries_directory, walkEntries_directory, ih base, inner_ih (base ++ [name]),
      inner_ih ([] ++ [name])]
    split
    · simp
    · simp
  | leaf name node rest hleaf ih =>
    rw [walkEntries_leaf hleaf, walkEntries_leaf hleaf, ih base]
    simp

/-! ## What is met -/

/-- Every directory that has to be entered for a node is entered. -/
def Reaches (enters : String → Bool) (address : Address) (node : Node) : Prop :=
  ∀ name ∈ node.way address, enters name

theorem reaches_cons (hne : address ≠ []) :
    Reaches enters (name :: address) node ↔ enters name ∧ Reaches enters address node := by
  have hway : node.way (name :: address) = name :: node.way address := by
    cases node with
    | directory => rfl
    | file => exact List.dropLast_cons_of_ne_nil hne
    | link => exact List.dropLast_cons_of_ne_nil hne
  rw [Reaches, hway, List.forall_mem_cons, Reaches]

theorem get?_cons {found : Node} {n : String} :
    (Node.directory ((name, found) :: rest)).get? (n :: address) =
      if name = n then found.get? address else (Node.directory rest).get? (n :: address) := by
  rw [Node.get?_directory_cons, Node.get?_directory_cons, entryNamed?]
  split <;> rfl

theorem entryNamed?_eq_none (h : ∀ entry ∈ rest, name < entry.1) :
    entryNamed? name rest = none := by
  induction rest with
  | nil => rfl
  | cons head rest ih =>
    obtain ⟨hlt, hrest⟩ := List.forall_mem_cons.1 h
    have hne : head.1 ≠ name := by
      intro heq
      rw [heq] at hlt
      exact String.lt_irrefl name hlt
    rw [entryNamed?, if_neg hne, ih hrest]

/-- What is met under one name, and what is met under the others. -/
theorem mem_append_walkEntries {found : Node} {part : List (Address × Node)}
    (hpart : (address, node) ∈ part ↔ ∃ inside, address = name :: inside ∧
      found.get? inside = some node ∧ Reaches enters address node)
    (hrest : (address, node) ∈ walkEntries enters [] rest ↔ address ≠ [] ∧
      (Node.directory rest).get? address = some node ∧ Reaches enters address node)
    (hname : ∀ entry ∈ rest, name < entry.1) :
    (address, node) ∈ part ++ walkEntries enters [] rest ↔ address ≠ [] ∧
      (Node.directory ((name, found) :: rest)).get? address = some node ∧
        Reaches enters address node := by
  rw [List.mem_append, hpart, hrest]
  cases address with
  | nil => simp
  | cons n inside =>
    rw [get?_cons]
    by_cases hn : name = n
    · subst hn
      rw [if_pos rfl, Node.get?_directory_cons, entryNamed?_eq_none hname]
      simp
    · rw [if_neg hn]
      simp [Ne.symm hn]

theorem Node.get?_leaf {found : Node} (h : found.kind ≠ .directory) :
    found.get? address = some node ↔ address = [] ∧ node = found := by
  cases address with
  | nil => simp [Node.get?, eq_comm]
  | cons =>
    cases found with
    | directory => exact absurd rfl h
    | file => simp [Node.get?]
    | link => simp [Node.get?]

theorem mem_walk_leaf {found : Node} (h : found.kind ≠ .directory) :
    (address, node) ∈ [([name], found)] ↔ ∃ inside, address = name :: inside ∧
      found.get? inside = some node ∧ Reaches enters address node := by
  rw [List.mem_singleton, Prod.mk.injEq]
  simp only [Node.get?_leaf h]
  constructor
  · rintro ⟨rfl, rfl⟩
    refine ⟨[], rfl, ⟨rfl, rfl⟩, ?_⟩
    cases node with
    | directory => exact absurd rfl h
    | file => exact fun _ hmem => absurd hmem List.not_mem_nil
    | link => exact fun _ hmem => absurd hmem List.not_mem_nil
  · rintro ⟨inside, rfl, ⟨rfl, rfl⟩, -⟩
    exact ⟨rfl, rfl⟩

theorem mem_walk_directory
    (ih : ∀ {address node}, (address, node) ∈ walkEntries enters [] inner ↔ address ≠ [] ∧
      (Node.directory inner).get? address = some node ∧ Reaches enters address node) :
    (address, node) ∈ (if enters name then
        ([name], Node.directory inner) :: walkEntries enters [name] inner else []) ↔
      ∃ inside, address = name :: inside ∧ (Node.directory inner).get? inside = some node ∧
        Reaches enters address node := by
  have hself : ∀ inner, Reaches enters [name] (.directory inner) ↔ enters name := fun _ =>
    List.forall_mem_singleton
  constructor
  · intro h
    split at h
    · next henters =>
      rw [List.mem_cons, walkEntries_eq_map, List.mem_map] at h
      rcases h with h | ⟨⟨inside, found⟩, hmet, h⟩
      · cases h
        exact ⟨[], rfl, rfl, (hself inner).2 henters⟩
      · cases h
        obtain ⟨hne, hget, hreaches⟩ := ih.1 hmet
        exact ⟨inside, rfl, hget, (reaches_cons hne).2 ⟨henters, hreaches⟩⟩
    · cases h
  · rintro ⟨inside, rfl, hget, hreaches⟩
    cases inside with
    | nil =>
      cases hget
      rw [if_pos ((hself inner).1 hreaches)]
      exact List.mem_cons_self
    | cons n inside =>
      obtain ⟨henters, hreaches⟩ := (reaches_cons (List.cons_ne_nil n inside)).1 hreaches
      rw [if_pos henters, List.mem_cons, walkEntries_eq_map, List.mem_map]
      exact .inr ⟨_, ih.2 ⟨List.cons_ne_nil n inside, hget, hreaches⟩, rfl⟩

/-- A walk meets what stands behind directories that it enters. -/
theorem mem_walkEntries (ordered : OrderedEntries entries) :
    (address, node) ∈ walkEntries enters [] entries ↔ address ≠ [] ∧
      (Node.directory entries).get? address = some node ∧ Reaches enters address node := by
  induction entries using entries_induction generalizing address node with
  | nil => cases address <;> simp [walkEntries, Node.get?, entryNamed?]
  | directory name inner rest inner_ih ih =>
    obtain ⟨hinner, hname, hrest⟩ := ordered
    rw [walkEntries_directory]
    exact mem_append_walkEntries (mem_walk_directory (inner_ih hinner)) (ih hrest) hname
  | leaf name found rest hleaf ih =>
    obtain ⟨-, hname, hrest⟩ := ordered
    rw [walkEntries_leaf hleaf]
    exact mem_append_walkEntries (mem_walk_leaf hleaf) (ih hrest) hname

/-! ## In which order -/

theorem lt_of_mem_walkEntries {met : Address × Node} (ordered : OrderedEntries rest)
    (hname : ∀ entry ∈ rest, name < entry.1) (h : met ∈ walkEntries enters [] rest)
    (inside : Address) : name :: inside < met.1 := by
  obtain ⟨address, node⟩ := met
  obtain ⟨hne, hget, -⟩ := (mem_walkEntries ordered).1 h
  obtain ⟨n, behind, rfl⟩ := List.exists_cons_of_ne_nil hne
  rw [Node.get?_directory_cons] at hget
  obtain ⟨found, hfound, -⟩ := Option.bind_eq_some_iff.1 hget
  have hlt : name < n := hname _ ((entryNamed?_eq_some_iff ordered).1 hfound)
  exact List.cons_lt_cons_iff.2 (.inl hlt)

/-- A walk meets the entries in ascending order of their addresses. -/
theorem pairwise_walkEntries (ordered : OrderedEntries entries) :
    (walkEntries enters [] entries).Pairwise fun met later => met.1 < later.1 := by
  induction entries using entries_induction with
  | nil => exact .nil
  | directory name inner rest inner_ih ih =>
    obtain ⟨hinner, hname, hrest⟩ := ordered
    rw [walkEntries_directory, walkEntries_eq_map enters ([] ++ [name]), List.pairwise_append]
    refine ⟨?_, ih hrest, ?_⟩
    · split
      · rw [List.pairwise_cons]
        refine ⟨fun met hmet => ?_, List.pairwise_map.2 ((inner_ih hinner).imp ?_)⟩
        · obtain ⟨⟨inside, node⟩, hinside, rfl⟩ := List.mem_map.1 hmet
          have hne : inside ≠ [] := ((mem_walkEntries hinner).1 hinside).1
          obtain ⟨n, behind, rfl⟩ := List.exists_cons_of_ne_nil hne
          exact List.cons_lt_cons_iff.2 (.inr ⟨rfl, List.nil_lt_cons n behind⟩)
        · exact fun hlt => List.cons_lt_cons_iff.2 (.inr ⟨rfl, hlt⟩)
      · exact .nil
    · intro met hmet later hlater
      have hmet' : ∃ inside, met.1 = name :: inside := by
        split at hmet
        · rcases List.mem_cons.1 hmet with rfl | hmet
          · exact ⟨[], rfl⟩
          · obtain ⟨inside, -, rfl⟩ := List.mem_map.1 hmet
            exact ⟨inside.1, rfl⟩
        · cases hmet
      obtain ⟨inside, hinside⟩ := hmet'
      rw [hinside]
      exact lt_of_mem_walkEntries hrest hname hlater inside
  | leaf name found rest hleaf ih =>
    obtain ⟨-, hname, hrest⟩ := ordered
    rw [walkEntries_leaf hleaf, List.pairwise_cons]
    exact ⟨fun later hlater => lt_of_mem_walkEntries hrest hname hlater [], ih hrest⟩

/-! ## Files -/

theorem mem_filesAmong {met : List (Address × Node)} {bytes : ByteArray} :
    (address, bytes) ∈ filesAmong met ↔ (address, .file bytes) ∈ met := by
  rw [filesAmong, List.mem_filterMap]
  constructor
  · rintro ⟨⟨place, node⟩, hmem, hfile⟩
    cases node with
    | file => cases hfile; exact hmem
    | link => cases hfile
    | directory => cases hfile
  · exact fun h => ⟨_, h, rfl⟩

theorem pairwise_filesAmong {met : List (Address × Node)}
    (h : met.Pairwise fun one later => one.1 < later.1) :
    (filesAmong met).Pairwise fun one later => one.1 < later.1 := by
  have haddress : ∀ {entry file}, fileAt? entry = some file → file.1 = entry.1 := by
    intro entry file hfile
    obtain ⟨place, node⟩ := entry
    cases node with
    | file => cases hfile; rfl
    | link => cases hfile
    | directory => cases hfile
  refine List.pairwise_filterMap.2 (h.imp fun hlt one hone later hlater => ?_)
  rw [haddress hone, haddress hlater]
  exact hlt

end RoutePolicy.FileTree
