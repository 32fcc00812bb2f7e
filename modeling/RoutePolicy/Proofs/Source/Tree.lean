import RoutePolicy.Proofs.FileTree.Follow
import RoutePolicy.Proofs.FileTree.Walk
import RoutePolicy.Source.Tree

/-!
# Scanning a tree

A scan gives the routes of the files that it opens, in the order of their addresses, or it ends at
the first entry that stops it, by a path that is too long or by a file that is no text
(`value_scanEntries_cases`). A file in which no route is found may come and go, and so may
directories, without a change to the routes (`DiffersAt.exists_entriesOf`).
-/

namespace RoutePolicy.Source

open FileTree (Address Node Entries Keeps Reaches filesAmong)

def Opens (root : String) (address : Address) : Prop :=
  (Path.below root address).utf8ByteSize ≤ FileTree.pathLimit

instance (root : String) (address : Address) : Decidable (Opens root address) :=
  inferInstanceAs (Decidable (_ ≤ _))

/-- The fault with which a scan ends at an entry. -/
def stop? (root : String) : Address × Node → Option FileFault
  | (address, node) =>
    if Opens root address then
      match node with
      | .file bytes => if String.fromUTF8? bytes = none then some .notUtf8 else none
      | _ => none
    else some .nameTooLong

/-- The routes of a file, which has none if it is no text. -/
def fileRoutes (file : Address × ByteArray) : List Route :=
  match String.fromUTF8? file.2 with
  | none => []
  | some text => scan (packageHint file.1) (relativePath file.1) text

def routesAmong (met : List (Address × Node)) : List Route := (filesAmong met).flatMap fileRoutes

def AllTexts (met : List (Address × Node)) : Prop :=
  ∀ file ∈ filesAmong met, String.fromUTF8? file.2 ≠ none

instance (met : List (Address × Node)) : Decidable (AllTexts met) :=
  inferInstanceAs (Decidable (∀ file ∈ filesAmong met, String.fromUTF8? file.2 ≠ none))

/-- What is opened later holds the same routes, and is text where all was text before. -/
structure SameSources (met met' : List (Address × Node)) : Prop where
  routes : routesAmong met' = routesAmong met
  texts : AllTexts met → AllTexts met'

variable {root : String} {extensions : List String} {t t' : FileTree} {place : Address}
  {met rest : List (Address × Node)} {routes : List Route} {entries : Entries}

/-! ## Opening entries -/

theorem stop?_eq_some_iff {address : Address} {node : Node} {fault : FileFault} :
    stop? root (address, node) = some fault ↔
      (¬ Opens root address ∧ fault = .nameTooLong) ∨
        Opens root address ∧ (∃ bytes, node = .file bytes ∧ String.fromUTF8? bytes = none) ∧
          fault = .notUtf8 := by
  have hsome : ∀ other : FileFault, some other = some fault ↔ fault = other := fun other => by
    rw [Option.some.injEq, eq_comm]
  by_cases hopens : Opens root address
  · cases node with
    | file bytes =>
      by_cases htext : String.fromUTF8? bytes = none
      · simp [stop?, hopens, htext, hsome]
      · simp [stop?, hopens, htext]
    | link => simp [stop?, hopens]
    | directory => simp [stop?, hopens]
  · simp [stop?, hopens, hsome]

theorem stop?_eq_none_iff {entry : Address × Node} :
    stop? root entry = none ↔ Opens root entry.1 ∧
      ∀ bytes, entry.2 = .file bytes → String.fromUTF8? bytes ≠ none := by
  obtain ⟨address, node⟩ := entry
  by_cases hopens : Opens root address
  · cases node with
    | file bytes =>
      by_cases htext : String.fromUTF8? bytes = none
      · simp [stop?, hopens, htext]
      · simp [stop?, hopens, htext]
    | link => simp [stop?, hopens]
    | directory => simp [stop?, hopens]
  · simp [stop?, hopens]

theorem allTexts_iff :
    AllTexts met ↔
      ∀ entry ∈ met, ∀ bytes, entry.2 = .file bytes → String.fromUTF8? bytes ≠ none := by
  constructor
  · rintro htexts ⟨address, _⟩ hmem bytes rfl
    exact htexts (address, bytes) (FileTree.mem_filesAmong.2 hmem)
  · rintro hall ⟨address, bytes⟩ hfile
    exact hall _ (FileTree.mem_filesAmong.1 hfile) bytes rfl

theorem routesAmong_cons (entry : Address × Node) (rest : List (Address × Node)) :
    routesAmong (entry :: rest) = routesAmong [entry] ++ routesAmong rest := by
  rw [routesAmong, ← List.singleton_append, filesAmong, List.filterMap_append, List.flatMap_append]
  rfl

theorem map_eq_ok_iff {α β ε : Type} {f : α → β} {x : Except ε α} {b : β} :
    x.map f = .ok b ↔ ∃ a, x = .ok a ∧ f a = b := by
  cases x <;> simp [Except.map]

/-- One step of a scan. -/
theorem value_scanEntries_cons {entry : Address × Node} :
    (scanEntries root (entry :: rest)).value =
      match stop? root entry with
      | some fault => .error (.file (Path.below root entry.1) fault)
      | none => (scanEntries root rest).value.map (routesAmong [entry] ++ ·) := by
  have hid : ∀ x : Except Failure (List Route), x = x.map ([] ++ ·) := by
    intro x
    cases x <;> rfl
  obtain ⟨address, node⟩ := entry
  by_cases hopens : Opens root address
  · have hshort : ¬ FileTree.pathLimit < (Path.below root address).utf8ByteSize :=
      Nat.not_lt_of_le hopens
    cases node with
    | file bytes =>
      simp only [scanEntries, if_neg hshort, stop?, if_pos hopens]
      cases htext : String.fromUTF8? bytes with
      | none => rfl
      | some text =>
        simp only [reduceCtorEq, if_false, routesAmong, filesAmong, FileTree.fileAt?,
          List.filterMap_cons, List.filterMap_nil, List.flatMap_singleton, fileRoutes, htext]
        rfl
    | link =>
      simp only [scanEntries, if_neg hshort, stop?, if_pos hopens]
      exact hid _
    | directory =>
      simp only [scanEntries, if_neg hshort, stop?, if_pos hopens]
      exact hid _
  · have hlong : FileTree.pathLimit < (Path.below root address).utf8ByteSize :=
      Nat.lt_of_not_le hopens
    cases node <;> simp only [scanEntries, if_pos hlong, stop?, if_neg hopens]

/-- A scan gives the routes of all, or it ends at the first entry that stops it. -/
theorem value_scanEntries_cases (root : String) (met : List (Address × Node)) :
    (∀ entry ∈ met, stop? root entry = none) ∧
        (scanEntries root met).value = .ok (routesAmong met) ∨
      ∃ before entry after fault, met = before ++ entry :: after ∧
        (∀ earlier ∈ before, stop? root earlier = none) ∧ stop? root entry = some fault ∧
        (scanEntries root met).value = .error (.file (Path.below root entry.1) fault) := by
  induction met with
  | nil => exact .inl ⟨List.forall_mem_nil _, rfl⟩
  | cons entry rest ih =>
    rw [value_scanEntries_cons]
    cases hstop : stop? root entry with
    | some fault =>
      exact .inr ⟨[], entry, rest, fault, rfl, List.forall_mem_nil _, hstop, rfl⟩
    | none =>
      rcases ih with ⟨hrest, hvalue⟩ | ⟨before, first, after, fault, rfl, hbefore, hfirst, hvalue⟩
      · refine .inl ⟨List.forall_mem_cons.2 ⟨hstop, hrest⟩, ?_⟩
        rw [routesAmong_cons entry rest, hvalue]
        rfl
      · refine .inr ⟨entry :: before, first, after, fault, rfl,
          List.forall_mem_cons.2 ⟨hstop, hbefore⟩, hfirst, ?_⟩
        rw [hvalue]
        rfl

theorem value_scanEntries_eq_ok_iff :
    (scanEntries root met).value = .ok routes ↔
      (∀ entry ∈ met, Opens root entry.1) ∧ AllTexts met ∧ routes = routesAmong met := by
  have hgoes : (∀ entry ∈ met, stop? root entry = none) ↔
      (∀ entry ∈ met, Opens root entry.1) ∧ AllTexts met := by
    simp only [stop?_eq_none_iff, allTexts_iff, forall_and]
  rw [← and_assoc, ← hgoes]
  rcases value_scanEntries_cases root met with
    ⟨hall, hvalue⟩ | ⟨before, entry, after, fault, rfl, -, hstop, hvalue⟩
  · rw [hvalue, Except.ok.injEq, eq_comm, and_iff_right hall]
  · rw [hvalue, iff_false_left (by simp)]
    rintro ⟨hall, -⟩
    have hmem : entry ∈ before ++ entry :: after := by simp
    rw [hall entry hmem] at hstop
    cases hstop

/-- Where all files are texts, a path that is too long is the only thing that can end a scan. -/
theorem value_scanEntries_of_not_opens (htexts : AllTexts met)
    (h : ¬ ∀ entry ∈ met, Opens root entry.1) :
    ∃ entry ∈ met, ¬ Opens root entry.1 ∧
      (scanEntries root met).value = .error (.file (Path.below root entry.1) .nameTooLong) := by
  rcases value_scanEntries_cases root met with
    ⟨hall, -⟩ | ⟨before, entry, after, fault, rfl, -, hstop, hvalue⟩
  · exact absurd (fun entry hmem => (stop?_eq_none_iff.1 (hall entry hmem)).1) h
  · have hmem : entry ∈ before ++ entry :: after := by simp
    obtain ⟨address, node⟩ := entry
    rcases stop?_eq_some_iff.1 hstop with ⟨hlong, rfl⟩ | ⟨-, ⟨bytes, rfl, hbytes⟩, -⟩
    · exact ⟨_, hmem, hlong, hvalue⟩
    · exact absurd hbytes (allTexts_iff.1 htexts _ hmem bytes rfl)

/-! ## The same sources in two trees -/

/-- A text in which no route is found, whatever file it is told to be. -/
def HoldsNothing (bytes : ByteArray) : Prop :=
  ∃ text : String, bytes = text.toUTF8 ∧ ∀ packageHint file, scan packageHint file text = []

/-- Two trees hold the same files, save that one file without routes was written, and the later one
keeps what the earlier one holds. -/
structure DiffersAt (place : Address) (t t' : FileTree) : Prop where
  keeps : Keeps t t'
  same : ∀ {address bytes}, address ≠ place →
    (t'.kind? address = some (.file bytes) ↔ t.kind? address = some (.file bytes))
  before : ∀ {bytes}, t.kind? place = some (.file bytes) → HoldsNothing bytes
  after : ∀ {bytes}, t'.kind? place = some (.file bytes) → HoldsNothing bytes

section

variable {p : FileTree.Purpose} {address top : Address} {bytes : ByteArray} {entries' : Entries}

theorem HoldsNothing.isText (h : HoldsNothing bytes) : String.fromUTF8? bytes ≠ none := by
  obtain ⟨text, rfl, -⟩ := h
  rw [FileTree.fromUTF8?_toUTF8]
  exact Option.some_ne_none text

theorem HoldsNothing.fileRoutes_eq_nil (h : HoldsNothing bytes) (address : Address) :
    fileRoutes (address, bytes) = [] := by
  obtain ⟨text, rfl, hscan⟩ := h
  simp only [fileRoutes, FileTree.fromUTF8?_toUTF8, hscan]

/-- The files that a scan opens below a directory. -/
theorem mem_files_opened (hget : t.get? top = some (.directory entries)) :
    (address, bytes) ∈ filesAmong (opened extensions entries) ↔
      (address ≠ [] ∧ (∀ name ∈ address.dropLast, entersDirectory name) ∧
        hasExtension extensions (address.getLast?.getD "")) ∧
      t.kind? (top ++ address) = some (.file bytes) := by
  rw [FileTree.mem_filesAmong, opened, List.mem_filter,
    FileTree.mem_walkEntries (FileTree.orderedEntries_of_get? hget), FileTree.kind?_eq_file_iff,
    FileTree.get?_append hget]
  simp only [isOpened, Reaches, Node.way]
  tauto

/-- A file that was there is there with the same routes. -/
theorem DiffersAt.exists_file (differs : DiffersAt place t t')
    (h : t.kind? address = some (.file bytes)) :
    ∃ bytes', t'.kind? address = some (.file bytes') ∧
      (∀ name, fileRoutes (name, bytes') = fileRoutes (name, bytes)) ∧
      (String.fromUTF8? bytes ≠ none → String.fromUTF8? bytes' ≠ none) := by
  by_cases hplace : address = place
  · subst hplace
    obtain ⟨bytes', h'⟩ := differs.keeps.file h
    refine ⟨bytes', h', fun name => ?_, fun _ => (differs.after h').isText⟩
    rw [(differs.after h').fileRoutes_eq_nil, (differs.before h).fileRoutes_eq_nil]
  · exact ⟨bytes, (differs.same hplace).2 h, fun _ => rfl, id⟩

theorem flatMap_filter_of_eq_nil {α β : Type} {f : α → List β} {keep : α → Bool} {l : List α}
    (h : ∀ a ∈ l, keep a = false → f a = []) : (l.filter keep).flatMap f = l.flatMap f := by
  induction l with
  | nil => rfl
  | cons a l ih =>
    obtain ⟨ha, hl⟩ := List.forall_mem_cons.1 h
    rw [List.filter_cons, List.flatMap_cons, ← ih hl]
    split
    · rw [List.flatMap_cons]
    · next hkeep => rw [ha (Bool.eq_false_iff.2 hkeep), List.nil_append]

/-- The files below a directory other than the one at a place. -/
theorem routesAmong_opened_eq_filter (hget : t.get? top = some (.directory entries))
    (hplace : ∀ {bytes}, t.kind? place = some (.file bytes) → HoldsNothing bytes) :
    routesAmong (opened extensions entries) =
      ((filesAmong (opened extensions entries)).filter fun file =>
        decide (top ++ file.1 ≠ place)).flatMap fileRoutes := by
  rw [routesAmong, flatMap_filter_of_eq_nil]
  rintro ⟨address, bytes⟩ hfile hkeep
  have hat : top ++ address = place := by simpa using hkeep
  have hkind := ((mem_files_opened hget).1 hfile).2
  rw [hat] at hkind
  exact (hplace hkind).fileRoutes_eq_nil address

theorem pairwise_opened (extensions : List String) (ordered : FileTree.OrderedEntries entries) :
    (filesAmong (opened extensions entries)).Pairwise fun one later => one.1 < later.1 :=
  FileTree.pairwise_filesAmong ((FileTree.pairwise_walkEntries ordered).filter _)

theorem DiffersAt.sameSources_opened (differs : DiffersAt place t t')
    (hget : t.get? top = some (.directory entries))
    (hget' : t'.get? top = some (.directory entries')) :
    SameSources (opened extensions entries) (opened extensions entries') where
  routes := by
    have hsorted := pairwise_opened extensions (FileTree.orderedEntries_of_get? hget)
    have hsorted' := pairwise_opened extensions (FileTree.orderedEntries_of_get? hget')
    rw [routesAmong_opened_eq_filter hget differs.before,
      routesAmong_opened_eq_filter hget' differs.after]
    congr 1
    refine (hsorted'.filter _).eq_of_mem_iff (hsorted.filter _) ?_
    rintro ⟨address, bytes⟩
    rw [List.mem_filter, List.mem_filter, mem_files_opened hget, mem_files_opened hget']
    refine and_congr_left fun hkeep => and_congr_right fun _ => differs.same ?_
    simpa using hkeep
  texts := by
    rintro htexts ⟨address, bytes⟩ hfile
    obtain ⟨hreached, hkind⟩ := (mem_files_opened hget').1 hfile
    by_cases hplace : top ++ address = place
    · rw [hplace] at hkind
      exact (differs.after hkind).isText
    · exact htexts _ ((mem_files_opened hget).2 ⟨hreached, (differs.same hplace).1 hkind⟩)

/-- A root leads to the same place, where the same routes are. -/
inductive Alike : Node → Node → Prop
  | directory (entries entries' : Entries) : Alike (.directory entries) (.directory entries')
  | link (target : String) : Alike (.link target) (.link target)
  | file {bytes bytes' : ByteArray}
    (routes : ∀ name, fileRoutes (name, bytes') = fileRoutes (name, bytes))
    (text : String.fromUTF8? bytes ≠ none → String.fromUTF8? bytes' ≠ none) :
    Alike (.file bytes) (.file bytes')

theorem DiffersAt.exists_locate {node : Node} (differs : DiffersAt place t t')
    (h : t.locate p root = .ok (address, node)) :
    ∃ node', t'.locate p root = .ok (address, node') ∧ t'.get? address = some node' ∧
      Alike node node' := by
  obtain ⟨hresolve, hget⟩ := FileTree.locate_eq_ok_iff.1 h
  have hresolve' := FileTree.resolve_found_of_keeps hresolve differs.keeps
  have hlocate : ∀ {node'}, t'.get? address = some node' →
      t'.locate p root = .ok (address, node') := fun hget' =>
    FileTree.locate_eq_ok_iff.2 ⟨hresolve', hget'⟩
  cases node with
  | directory entries =>
    obtain ⟨entries', hget'⟩ := FileTree.kind?_eq_directory_iff.1
      (differs.keeps.directory (FileTree.kind?_eq_directory_iff.2 ⟨entries, hget⟩))
    exact ⟨_, hlocate hget', hget', .directory entries entries'⟩
  | link target =>
    have hget' := FileTree.kind?_eq_link_iff.1
      (differs.keeps.link (FileTree.kind?_eq_link_iff.2 hget))
    exact ⟨_, hlocate hget', hget', .link target⟩
  | file bytes =>
    obtain ⟨bytes', hkind', hroutes, htext⟩ :=
      differs.exists_file (FileTree.kind?_eq_file_iff.2 hget)
    have hget' := FileTree.kind?_eq_file_iff.1 hkind'
    exact ⟨_, hlocate hget', hget', .file hroutes htext⟩

theorem sameSources_file {bytes' : ByteArray}
    (hroutes : ∀ name, fileRoutes (name, bytes') = fileRoutes (name, bytes))
    (htext : String.fromUTF8? bytes ≠ none → String.fromUTF8? bytes' ≠ none) :
    SameSources [(address, .file bytes)] [(address, .file bytes')] where
  routes := by
    have hsingle : ∀ file : ByteArray,
        routesAmong [(address, .file file)] = fileRoutes (address, file) := fun _ =>
      List.flatMap_singleton ..
    rw [hsingle, hsingle, hroutes]
  texts h := by
    rintro file hfile
    rw [List.mem_singleton.1 hfile]
    exact htext (h _ (List.mem_singleton_self (address, bytes)))

theorem DiffersAt.exists_entriesOf (differs : DiffersAt place t t')
    (h : entriesOf t extensions root = .ok met) :
    ∃ met', entriesOf t' extensions root = .ok met' ∧ SameSources met met' := by
  rw [entriesOf] at h
  cases hlocate : t.locate .inspecting root with
  | error =>
    rw [hlocate] at h
    cases h
  | ok located =>
    obtain ⟨top, node⟩ := located
    have hget := (FileTree.locate_eq_ok_iff.1 hlocate).2
    obtain ⟨node', hlocate', hget', halike⟩ := differs.exists_locate hlocate
    rw [hlocate] at h
    rw [entriesOf, hlocate']
    cases halike with
    | directory entries entries' =>
      cases h
      exact ⟨_, rfl, differs.sameSources_opened hget hget'⟩
    | file hroutes htext =>
      simp only at h ⊢
      split at h
      · next hextension =>
        cases h
        exact ⟨_, if_pos hextension, sameSources_file hroutes htext⟩
      · next hextension =>
        cases h
        exact ⟨_, if_neg hextension, rfl, id⟩
    | link target =>
      -- a link leads on, to a directory or to what holds nothing
      cases hread : t.locate .reading root with
      | error =>
        simp only [hread] at h
        cases h
      | ok located =>
        obtain ⟨top, node⟩ := located
        have hget := (FileTree.locate_eq_ok_iff.1 hread).2
        obtain ⟨node', hread', hget', halike⟩ := differs.exists_locate hread
        simp only [hread] at h
        simp only [hread']
        cases halike with
        | directory entries entries' =>
          cases h
          exact ⟨_, rfl, differs.sameSources_opened hget hget'⟩
        | file =>
          cases h
          exact ⟨_, rfl, rfl, id⟩
        | link =>
          cases h
          exact ⟨_, rfl, rfl, id⟩

theorem value_scanTree (t : FileTree) (extensions : List String) (root : String) :
    (scanTree t extensions root).value =
      match entriesOf t extensions root with
      | .error fault => .error (.file root fault)
      | .ok met => (scanEntries root met).value := by
  rw [scanTree]
  cases entriesOf t extensions root <;> rfl

/-- A tree that differs only by a file without routes and by directories is scanned with the same
result, unless the path of something that is opened is too long. -/
theorem DiffersAt.scanTree (differs : DiffersAt place t t')
    (h : (scanTree t extensions root).value = .ok routes) :
    ∃ met', Source.entriesOf t' extensions root = .ok met' ∧
      ((∀ entry ∈ met', Opens root entry.1) →
        (Source.scanTree t' extensions root).value = .ok routes) ∧
      ((¬ ∀ entry ∈ met', Opens root entry.1) → ∃ entry ∈ met', ¬ Opens root entry.1 ∧
        (Source.scanTree t' extensions root).value =
          .error (.file (Path.below root entry.1) .nameTooLong)) := by
  rw [value_scanTree] at h
  cases hentries : Source.entriesOf t extensions root with
  | error =>
    rw [hentries] at h
    cases h
  | ok met =>
    rw [hentries] at h
    obtain ⟨-, htexts, rfl⟩ := value_scanEntries_eq_ok_iff.1 h
    obtain ⟨met', hentries', same⟩ := differs.exists_entriesOf hentries
    refine ⟨met', hentries', fun hopens => ?_, fun hnot => ?_⟩
    · rw [value_scanTree, hentries']
      exact value_scanEntries_eq_ok_iff.2 ⟨hopens, same.texts htexts, same.routes.symm⟩
    · obtain ⟨entry, hentry, hlong, hvalue⟩ :=
        value_scanEntries_of_not_opens (same.texts htexts) hnot
      rw [value_scanTree, hentries']
      exact ⟨entry, hentry, hlong, hvalue⟩

end

end RoutePolicy.Source
