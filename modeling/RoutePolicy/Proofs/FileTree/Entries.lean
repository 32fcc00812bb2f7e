import Mathlib.Data.List.Basic
import RoutePolicy.FileTree.Basic

/-!
# What stands at an address

A directory holds all that is below it, so a put changes the node at every address on the way. The
`Kind` of a node leaves the entries of a directory out, and a put changes the kind at one address
only (`kind?_put`). What is said of a change to a tree is said by kinds.
-/

namespace RoutePolicy.FileTree

/-- What stands under a name, without what a directory holds. -/
inductive Kind where
  | file (bytes : ByteArray)
  | link (target : String)
  | directory

def Node.kind : Node → Kind
  | .file bytes => .file bytes
  | .link target => .link target
  | .directory _ => .directory

def kind? (t : FileTree) (address : Address) : Option Kind := (t.get? address).map Node.kind

section Entries

variable {name other : String} {node : Node} {entries : Entries} {address place : Address}

theorem entryNamed?_putEntry :
    entryNamed? other (putEntry name node entries) =
      if other = name then some node else entryNamed? other entries := by
  induction entries with
  | nil =>
    rw [putEntry, entryNamed?, entryNamed?]
    exact if_congr eq_comm rfl rfl
  | cons head rest ih =>
    obtain ⟨n, old⟩ := head
    rw [putEntry]
    split
    · rw [entryNamed?]
      exact if_congr eq_comm rfl rfl
    · split
      · next heq =>
        rw [entryNamed?, entryNamed?, ← heq]
        by_cases h : name = other
        · rw [if_pos h, if_pos h.symm]
        · rw [if_neg h, if_neg (Ne.symm h), if_neg h]
      · next hne =>
        rw [entryNamed?, entryNamed?, ih]
        by_cases h : n = other
        · rw [if_pos h, if_pos h, if_neg fun heq => hne (heq.symm.trans h.symm)]
        · rw [if_neg h, if_neg h]

theorem entryNamed?_eq_some_iff (ordered : OrderedEntries entries) :
    entryNamed? name entries = some node ↔ (name, node) ∈ entries := by
  induction entries with
  | nil => simp only [entryNamed?, reduceCtorEq, List.not_mem_nil]
  | cons head rest ih =>
    obtain ⟨n, old⟩ := head
    obtain ⟨-, hlt, hrest⟩ := ordered
    rw [entryNamed?, List.mem_cons, Prod.mk.injEq]
    split
    · next heq =>
      -- no entry behind the first one has its name
      have hnot : (name, node) ∉ rest := fun hmem => String.lt_irrefl n (heq ▸ hlt _ hmem)
      simp only [hnot, or_false, heq, true_and, Option.some.injEq, eq_comm]
    · next hne =>
      rw [ih hrest]
      exact ⟨Or.inr, fun h => h.resolve_left fun heq => hne heq.1.symm⟩

/-- Nothing changes where the node is there already. -/
theorem putEntry_self (ordered : OrderedEntries entries)
    (h : entryNamed? name entries = some node) : putEntry name node entries = entries := by
  induction entries with
  | nil => cases h
  | cons head rest ih =>
    obtain ⟨n, old⟩ := head
    obtain ⟨-, hlt, hrest⟩ := ordered
    rw [entryNamed?] at h
    rw [putEntry]
    split at h
    · next heq =>
      cases h
      rw [heq, if_neg (String.lt_irrefl name), if_pos rfl]
    · next hne =>
      have hmem : n < name := hlt _ ((entryNamed?_eq_some_iff hrest).1 h)
      rw [if_neg (String.lt_asymm hmem), if_neg (Ne.symm hne), ih hrest h]

theorem putAt_self (ordered : OrderedEntries entries)
    (h : (Node.directory entries).get? place = some node) : putAt node place entries = entries := by
  fun_induction putAt node place entries with
  | case1 => rfl
  | case2 name entries =>
    apply putEntry_self ordered
    rw [Node.get?] at h
    split at h
    · next found hfound =>
      rw [hfound, ← h]
      rfl
    · cases h
  | case3 name next address entries inner hfind ih =>
    rw [Node.get?, hfind] at h
    rw [ih (ordered_of_entryNamed? ordered hfind) h]
    exact putEntry_self ordered hfind
  | case4 => rfl

theorem Node.get?_directory_cons :
    (Node.directory entries).get? (name :: address) =
      (entryNamed? name entries).bind (Node.get? · address) := by
  rw [Node.get?]
  cases entryNamed? name entries <;> rfl

theorem Node.get?_append (node : Node) (address more : Address) :
    node.get? (address ++ more) = (node.get? address).bind (Node.get? · more) := by
  induction address generalizing node with
  | nil => rfl
  | cons name address ih =>
    cases node with
    | file => rfl
    | link => rfl
    | directory entries =>
      rw [List.cons_append, Node.get?_directory_cons, Node.get?_directory_cons, Option.bind_assoc]
      exact Option.bind_congr fun inner _ => ih inner

theorem Node.ordered_of_get? {found : Node} (h : node.get? address = some found)
    (ordered : node.Ordered) : found.Ordered := by
  induction address generalizing node with
  | nil =>
    cases h
    exact ordered
  | cons name address ih =>
    cases node with
    | file => cases h
    | link => cases h
    | directory entries =>
      rw [Node.get?_directory_cons] at h
      obtain ⟨inner, hinner, hget⟩ := Option.bind_eq_some_iff.1 h
      exact ih hget (ordered_of_entryNamed? ordered hinner)

def Node.Bare (node : Node) : Prop := ∀ address, address ≠ [] → node.get? address = none

theorem Node.bare_file (bytes : ByteArray) : (Node.file bytes).Bare := by
  intro address hne
  cases address with
  | nil => exact absurd rfl hne
  | cons => rfl

theorem Node.bare_directory : (Node.directory []).Bare := by
  intro address hne
  cases address with
  | nil => exact absurd rfl hne
  | cons => rfl

theorem entryNamed?_eq_directory
    (h : ((Node.directory entries).get? (name :: address)).map Node.kind = some .directory) :
    ∃ inner, entryNamed? name entries = some (.directory inner) := by
  rw [Node.get?_directory_cons] at h
  cases hfind : entryNamed? name entries with
  | none =>
    rw [hfind] at h
    cases h
  | some found =>
    rw [hfind, Option.bind_some] at h
    cases found with
    | directory inner => exact ⟨inner, rfl⟩
    | file => cases address <;> cases h
    | link => cases address <;> cases h

/-- A bare node in place of a bare node, or where nothing was, is the only change. -/
theorem kind_putAt (hne : place ≠ [])
    (hparent : ((Node.directory entries).get? place.dropLast).map Node.kind = some .directory)
    (hold : ∀ old, (Node.directory entries).get? place = some old → old.Bare) (hnode : node.Bare)
    (address : Address) :
    ((Node.directory (putAt node place entries)).get? address).map Node.kind =
      if address = place then some node.kind
      else ((Node.directory entries).get? address).map Node.kind := by
  fun_induction putAt node place entries generalizing address with
  | case1 => exact absurd rfl hne
  | case2 name entries =>
    cases address with
    | nil => rfl
    | cons n rest =>
      rw [Node.get?_directory_cons, Node.get?_directory_cons, entryNamed?_putEntry]
      by_cases hn : n = name
      · subst hn
        rw [if_pos rfl, Option.bind_some]
        cases rest with
        | nil => rw [if_pos rfl]; rfl
        | cons next rest =>
          -- below the place there was nothing, and there is nothing
          have hbelow : (entryNamed? n entries).bind (Node.get? · (next :: rest)) = none := by
            cases hfind : entryNamed? n entries with
            | none => rfl
            | some old =>
              refine hold old ?_ _ (List.cons_ne_nil _ _)
              rw [Node.get?_directory_cons, hfind]
              rfl
          rw [hnode _ (List.cons_ne_nil _ _), hbelow, if_neg (by simp)]
      · rw [if_neg hn, if_neg fun heq => hn (List.cons.inj heq).1]
  | case3 name next inner_address entries inner hfind ih =>
    rw [List.dropLast_cons_of_ne_nil (List.cons_ne_nil _ _), Node.get?_directory_cons, hfind]
      at hparent
    have hold' : ∀ old, (Node.directory inner).get? (next :: inner_address) = some old →
        old.Bare := by
      intro old hget
      apply hold old
      rw [Node.get?_directory_cons, hfind]
      exact hget
    cases address with
    | nil => rfl
    | cons n rest =>
      rw [Node.get?_directory_cons, Node.get?_directory_cons, entryNamed?_putEntry]
      by_cases hn : n = name
      · subst hn
        rw [if_pos rfl, Option.bind_some, ih (List.cons_ne_nil _ _) hparent hold' rest, hfind]
        exact if_congr (by rw [List.cons.injEq, and_iff_right rfl]) rfl rfl
      · rw [if_neg hn, if_neg fun heq => hn (List.cons.inj heq).1]
  | case4 name next inner_address entries hnone =>
    rw [List.dropLast_cons_of_ne_nil (List.cons_ne_nil _ _)] at hparent
    obtain ⟨inner, hinner⟩ := entryNamed?_eq_directory hparent
    exact absurd hinner (hnone inner)

end Entries

section Trees

variable {t : FileTree} {address place : Address} {bytes : ByteArray} {node : Node} {kind : Kind}

theorem kind?_nil (t : FileTree) : t.kind? [] = some .directory := rfl

theorem kind?_eq_file_iff :
    t.kind? address = some (.file bytes) ↔ t.get? address = some (.file bytes) := by
  rw [kind?, Option.map_eq_some_iff]
  constructor
  · rintro ⟨node, hget, hkind⟩
    cases node with
    | file found => rw [hget, Kind.file.inj hkind]
    | link => cases hkind
    | directory => cases hkind
  · exact fun hget => ⟨_, hget, rfl⟩

theorem kind?_eq_link_iff {target : String} :
    t.kind? address = some (.link target) ↔ t.get? address = some (.link target) := by
  rw [kind?, Option.map_eq_some_iff]
  constructor
  · rintro ⟨node, hget, hkind⟩
    cases node with
    | file => cases hkind
    | link found => rw [hget, Kind.link.inj hkind]
    | directory => cases hkind
  · exact fun hget => ⟨_, hget, rfl⟩

theorem kind?_eq_directory_iff :
    t.kind? address = some .directory ↔ ∃ entries, t.get? address = some (.directory entries) := by
  rw [kind?, Option.map_eq_some_iff]
  constructor
  · rintro ⟨node, hget, hkind⟩
    cases node with
    | file => cases hkind
    | link => cases hkind
    | directory entries => exact ⟨entries, hget⟩
  · rintro ⟨entries, hget⟩
    exact ⟨_, hget, rfl⟩

theorem orderedEntries_of_get? {entries : Entries}
    (h : t.get? address = some (.directory entries)) : OrderedEntries entries :=
  Node.ordered_of_get? h t.ordered

theorem get?_append {top : Address} {entries : Entries} (h : t.get? top = some (.directory entries))
    (address : Address) : t.get? (top ++ address) = (Node.directory entries).get? address := by
  rw [get?, Node.get?_append, ← get?, h, Option.bind_some]

/-- What is there stands in a directory. -/
theorem kind?_dropLast (h : t.kind? address = some kind) :
    t.kind? address.dropLast = some .directory := by
  rcases List.eq_nil_or_concat address with rfl | ⟨around, name, rfl⟩
  · exact t.kind?_nil
  · rw [List.concat_eq_append, List.dropLast_concat]
    rw [kind?, get?, List.concat_eq_append, Node.get?_append] at h
    cases hget : (Node.directory t.entries).get? around with
    | none =>
      rw [hget] at h
      cases h
    | some found =>
      rw [hget, Option.bind_some] at h
      cases found with
      | directory entries => exact kind?_eq_directory_iff.2 ⟨entries, hget⟩
      | file => cases h
      | link => cases h

theorem put_self {hn : node.Ordered} (h : t.get? place = some node) : t.put place node hn = t := by
  obtain ⟨entries, ordered⟩ := t
  simp only [put, putAt_self ordered h]

/-- A file can be put here: the place lies in a directory, and at most a file is there. -/
structure Takes (t : FileTree) (place : Address) : Prop where
  ne_nil : place ≠ []
  parent : t.kind? place.dropLast = some .directory
  file : ∀ {kind}, t.kind? place = some kind → ∃ bytes, kind = .file bytes

theorem kind?_put {hn : node.Ordered} (takes : t.Takes place) (hnode : node.Bare)
    (address : Address) :
    (t.put place node hn).kind? address =
      if address = place then some node.kind else t.kind? address := by
  refine kind_putAt takes.ne_nil takes.parent (fun old hold => ?_) hnode address
  have hkind : t.kind? place = some old.kind := by
    rw [kind?, get?, hold]
    rfl
  obtain ⟨bytes, hbytes⟩ := takes.file hkind
  cases old with
  | file => exact Node.bare_file _
  | link => cases hbytes
  | directory => cases hbytes

end Trees

/-- One tree goes on where another one stopped: links and directories stay as they are, files may be
written anew, and entries may be added. -/
structure Keeps (t t' : FileTree) : Prop where
  file : ∀ {address bytes}, t.kind? address = some (.file bytes) →
    ∃ bytes', t'.kind? address = some (.file bytes')
  link : ∀ {address target}, t.kind? address = some (.link target) →
    t'.kind? address = some (.link target)
  directory : ∀ {address}, t.kind? address = some .directory → t'.kind? address = some .directory

namespace Keeps

variable {t t' t'' : FileTree} {place : Address} {node : Node}

theorem trans (h : Keeps t t') (h' : Keeps t' t'') : Keeps t t'' where
  file hfile := (h.file hfile).elim fun _ hfile' => h'.file hfile'
  link hlink := h'.link (h.link hlink)
  directory hdirectory := h'.directory (h.directory hdirectory)

/-- A put keeps everything, save that a directory must not take the place of a file. -/
theorem put {hn : node.Ordered} (takes : t.Takes place) (hnode : node.Bare)
    (h : t.kind? place = none ∨ ∃ bytes, node = .file bytes) : Keeps t (t.put place node hn) where
  file {address bytes} hfile := by
    rw [kind?_put takes hnode]
    split
    · next heq =>
      rcases h with hnone | ⟨bytes', rfl⟩
      · rw [heq, hnone] at hfile
        cases hfile
      · exact ⟨bytes', rfl⟩
    · exact ⟨bytes, hfile⟩
  link {address target} hlink := by
    rw [kind?_put takes hnode, if_neg, hlink]
    rintro rfl
    obtain ⟨bytes, hbytes⟩ := takes.file hlink
    cases hbytes
  directory {address} hdirectory := by
    rw [kind?_put takes hnode, if_neg, hdirectory]
    rintro rfl
    obtain ⟨bytes, hbytes⟩ := takes.file hdirectory
    cases hbytes

end Keeps

end RoutePolicy.FileTree
