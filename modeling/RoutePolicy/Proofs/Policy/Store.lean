import RoutePolicy.Policy
import RoutePolicy.Proofs.FileTree.Change
import RoutePolicy.Proofs.FileTree.Path
import RoutePolicy.Proofs.Policy.Document

/-!
# Stored policies

Storing a policy makes directories around its file and writes the file (`isStored_of_store`). Of a
policy that is stored already nothing has to be done again (`store_again`).
-/

namespace RoutePolicy.Policy

open FileTree (Address Kind Keeps OnlyMakes MadeFor Writes)

/-- A directory that was not there, on the way to the file of a path. -/
structure MadeAround (path : String) (t t' : FileTree) (address : Address) : Prop where
  vacant : t.kind? address = none
  made : t'.kind? address = some .directory
  path : ∃ around rest, path = around ++ "/" ++ rest ∧
    t'.resolve .reading around = .ok (.found address)

/-- The policy is in the file that the path leads to, and nothing else was done, save that missing
directories around the file were made. -/
structure IsStored (path : String) (rules : List Rule) (t t' : FileTree) (place : Address) :
    Prop where
  resolve : t'.resolve .reading path = .ok (.found place)
  file : t'.kind? place = some (.file (toJson rules).toUTF8)
  /-- The file was not there, or another text was in it. -/
  before : ∀ kind, t.kind? place = some kind → ∃ bytes, kind = .file bytes
  others : ∀ address, address ≠ place →
    t'.kind? address = t.kind? address ∨ MadeAround path t t' address
  text : t'.readText path = .ok (toJson rules)
  load : Policy.load t' path = .ok (rules.map Rule.published)

variable {t t' : FileTree} {path : String} {rules : List Rule} {address place : Address}

/-- The paths of the directories that are made for the file of a path. -/
def around (path : String) : List String :=
  match Path.parent? path with
  | none => []
  | some parent => Path.chain parent

theorem makeRoom_tree (t : FileTree) (path : String) :
    (makeRoom t path).1 = (t.ensureChain (around path)).tree := by
  rw [makeRoom, around]
  cases Path.parent? path <;> rfl

theorem makeRoom_failure_eq_none_iff :
    (makeRoom t path).2 = none ↔ (t.ensureChain (around path)).fault = none := by
  rw [makeRoom, around]
  cases Path.parent? path with
  | none => exact iff_of_true rfl rfl
  | some parent => exact Option.map_eq_none_iff

theorem onlyMakes_makeRoom (t : FileTree) (path : String) :
    OnlyMakes (around path) t (makeRoom t path).1 := by
  rw [makeRoom_tree]
  exact FileTree.onlyMakes_ensureChain t (around path)

theorem makeRoom_of_keeps (h : (makeRoom t path).2 = none) (keeps : Keeps (makeRoom t path).1 t') :
    makeRoom t' path = (t', none) := by
  rw [makeRoom_tree] at keeps
  have hchain := FileTree.ensureChain_of_keeps (makeRoom_failure_eq_none_iff.1 h) keeps
  refine Prod.ext ?_ (makeRoom_failure_eq_none_iff.2 (by rw [hchain]))
  rw [makeRoom_tree, hchain]

theorem resolve_root (t : FileTree) : t.resolve .reading "/" = .ok (.found []) :=
  FileTree.resolve_fillers (by decide) (by decide) (by decide)

theorem madeAround_of_madeFor (h : MadeFor (around path) t t' address) :
    MadeAround path t t' address := by
  obtain ⟨around, haround, hresolve⟩ := h.path
  refine ⟨h.vacant, h.made, around, ?_⟩
  rw [Policy.around] at haround
  cases hparent : Path.parent? path with
  | none =>
    rw [hparent] at haround
    cases haround
  | some parent =>
    rw [hparent] at haround
    rcases Path.eq_append_of_mem_chain hparent haround with rfl | ⟨rest, hrest⟩
    · rw [resolve_root] at hresolve
      cases hresolve
      exact absurd h.vacant (by rw [t.kind?_nil]; simp)
    · exact ⟨rest, hrest, hresolve⟩

theorem MadeAround.of_keeps {roomy : FileTree} (h : MadeAround path t roomy address)
    (keeps : Keeps roomy t') : MadeAround path t t' address := by
  obtain ⟨around, rest, hpath, hresolve⟩ := h.path
  exact ⟨h.vacant, keeps.directory h.made, around, rest, hpath,
    FileTree.resolve_found_of_keeps hresolve keeps⟩

theorem makeRoom_kind? (t : FileTree) (path : String) (address : Address) :
    (makeRoom t path).1.kind? address = t.kind? address ∨
      MadeAround path t (makeRoom t path).1 address :=
  (onlyMakes_makeRoom t path address).imp_right madeAround_of_madeFor

theorem store_tree_of_error {failure : Failure}
    (h : (store t path rules).result.value = .error failure) :
    (store t path rules).tree = (makeRoom t path).1 := by
  rw [store] at h ⊢
  split
  · next hroom => rw [hroom]
  · next roomy hroom =>
    rw [hroom] at h ⊢
    simp only at h ⊢
    split at h
    · next fault hfault =>
      exact FileTree.writeFile_eq_of_fault (by rw [hfault]; simp)
    · cases h

theorem exists_writes_of_store (h : (store t path rules).result.value = .ok ()) :
    (makeRoom t path).2 = none ∧
      ∃ place, Writes path (toJson rules).toUTF8 (makeRoom t path).1 (store t path rules).tree
        place := by
  rw [store] at h ⊢
  split
  · next hroom =>
    rw [hroom] at h
    cases h
  · next roomy hroom =>
    rw [hroom] at h ⊢
    simp only at h ⊢
    split at h
    · cases h
    · next hfault =>
      exact ⟨trivial, FileTree.exists_writes_of_fault hfault⟩

theorem isStored_of_store (h : (store t path rules).result.value = .ok ()) :
    ∃ place, IsStored path rules t (store t path rules).tree place := by
  obtain ⟨-, place, writes⟩ := exists_writes_of_store h
  have htext := FileTree.readText_eq_ok writes.readBytes
  refine ⟨place, {
    resolve := writes.read
    file := (writes.kind place).trans (if_pos rfl)
    before := ?_
    others := ?_
    text := htext
    load := by
      rw [Policy.load, htext]
      exact ofJson_toJson rules }⟩
  · intro kind hkind
    rcases makeRoom_kind? t path place with hsame | hmade
    · exact writes.takes.file (hsame.trans hkind)
    · rw [hmade.vacant] at hkind
      cases hkind
  · intro address hne
    rw [writes.kind, if_neg hne]
    exact (makeRoom_kind? t path address).imp_right (·.of_keeps writes.keeps)

/-- A policy that is stored again is stored as it was. -/
theorem store_again (h : (store t path rules).result.value = .ok ()) :
    store (store t path rules).tree path rules =
      ⟨(store t path rules).tree, ⟨.ok (), [.policyWritten path rules.length]⟩⟩ := by
  obtain ⟨hroom, place, writes⟩ := exists_writes_of_store h
  have hroom' := makeRoom_of_keeps hroom writes.keeps
  rw [store, hroom']
  simp only [writes.again]

end RoutePolicy.Policy
