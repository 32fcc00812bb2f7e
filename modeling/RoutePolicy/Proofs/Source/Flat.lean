import RoutePolicy.Proofs.FileTree.Path
import RoutePolicy.Proofs.Source.LongRoot
import RoutePolicy.Proofs.Text.ByteOrder

/-!
# A scan without the walk

What a scan gives can be told from the flat list of the files that it selects: a file counts by its
own name and by the names of the directories around it, and the files come in the order of the bytes
of their addresses (`IsSelection`). The walk itself shows only where a path is too long, since it
opens directories too (`Stops`). The walk and the flat list agree on the result, whatever the tree
holds beside the files that are selected and the directories that are entered.
-/

namespace RoutePolicy.Source

open FileTree (Address Node Entries)

/-! ## The flat list -/

/-- The root leads to the directory at an address, by itself or through links. -/
structure IsRoot (t : FileTree) (root : String) (top : Address) : Prop where
  leads : t.resolve .reading root = .ok (.found top)
  directory : t.kind? top = some .directory

def IsPassedOver (name : String) : Prop :=
  name.toList.head? = some '.' ∨ name = "vendor" ∨ name = "target"

/-- A file at an address below the top that is scanned: its extension is wanted, and no directory
between the top and the file is passed over. -/
structure Selects (t : FileTree) (top : Address) (extensions : List String) (address : Address)
    (bytes : ByteArray) : Prop where
  file : t.kind? (top ++ address) = some (.file bytes)
  extension : ∃ name extension, address.getLast? = some name ∧ Path.IsExtension extension name ∧
    String.ofList (extension.toList.map Char.toLower) ∈ extensions
  around : ∀ name ∈ address.dropLast, ¬ IsPassedOver name

/-- A directory at an address below the top that is not passed over, and that lies in none that
is. -/
structure Enters (t : FileTree) (top : Address) (address : Address) : Prop where
  directory : t.kind? (top ++ address) = some .directory
  below : address ≠ []
  names : ∀ name ∈ address, ¬ IsPassedOver name

/-- The files that are scanned, in the order of the bytes of the names on the way to them. -/
structure IsSelection (t : FileTree) (top : Address) (extensions : List String)
    (files : List (Address × ByteArray)) : Prop where
  mem : ∀ address bytes, (address, bytes) ∈ files ↔ Selects t top extensions address bytes
  ascending : files.Pairwise fun one later =>
    one.1.map Text.bytesOf < later.1.map Text.bytesOf

/-- The routes of all files of a list, or the fault of the first one that is no text. -/
def readFiles (root : String) (files : List (Address × ByteArray)) : Except Failure (List Route) :=
  match files.find? fun file => (String.fromUTF8? file.2).isNone with
  | some file => .error (.file (Path.below root file.1) .notUtf8)
  | none => .ok (files.flatMap fileRoutes)

def IsOpened (t : FileTree) (top : Address) (extensions : List String) (address : Address) : Prop :=
  Enters t top address ∨ ∃ bytes, Selects t top extensions address bytes

/-- What ends a scan: a path that is too long to be opened, and a file that is no text. -/
inductive Stops (t : FileTree) (top : Address) (extensions : List String) (root : String) :
    Address → FileFault → Prop
  | tooLong {address : Address} (opened : IsOpened t top extensions address)
    (long : ¬ Opens root address) : Stops t top extensions root address .nameTooLong
  | noText {address : Address} {bytes : ByteArray}
    (selected : Selects t top extensions address bytes) (opens : Opens root address)
    (bad : String.fromUTF8? bytes = none) :
    Stops t top extensions root address .notUtf8

/-- What ends a scan, since all else that would end it stands behind. -/
structure StopsFirst (t : FileTree) (top : Address) (extensions : List String) (root : String)
    (address : Address) (fault : FileFault) : Prop where
  stops : Stops t top extensions root address fault
  first : ∀ {other otherFault}, Stops t top extensions root other otherFault →
    other = address ∨ address.map Text.bytesOf < other.map Text.bytesOf

/-- The result of a scan as the flat list tells it. -/
inductive Reads (t : FileTree) (top : Address) (extensions : List String) (root : String) :
    Except Failure (List Route) → Prop
  | all {files : List (Address × ByteArray)} (selection : IsSelection t top extensions files)
    (goes : ∀ address fault, ¬ Stops t top extensions root address fault) :
    Reads t top extensions root (.ok (files.flatMap fileRoutes))
  | stopped {address : Address} {fault : FileFault}
    (first : StopsFirst t top extensions root address fault) :
    Reads t top extensions root (.error (.file (Path.below root address) fault))

variable {t t' : FileTree} {root name : String} {top top' address : Address}
  {extensions : List String} {files files' : List (Address × ByteArray)} {bytes : ByteArray}
  {fault : FileFault} {result result' : Except Failure (List Route)} {entries : Entries}
  {node : Node}

/-! ## Names -/

theorem entersDirectory_iff : entersDirectory name ↔ ¬ IsPassedOver name := by
  simp [entersDirectory, IsPassedOver, and_assoc]

theorem hasExtension_iff :
    hasExtension extensions name ↔ ∃ extension, Path.IsExtension extension name ∧
      String.ofList (extension.toList.map Char.toLower) ∈ extensions := by
  rw [hasExtension]
  simp only [← Path.extension?_eq_some_iff]
  cases Path.extension? name with
  | none => simp
  | some extension => simp

/-! ## One result -/

theorem IsSelection.unique (h : IsSelection t top extensions files)
    (h' : IsSelection t top extensions files') : files = files' := by
  have : Std.Asymm fun one later : Address × ByteArray =>
      one.1.map Text.bytesOf < later.1.map Text.bytesOf := ⟨fun _ _ => List.lt_asymm⟩
  refine h.ascending.eq_of_mem_iff h'.ascending ?_
  rintro ⟨address, bytes⟩
  rw [h.mem, h'.mem]

theorem StopsFirst.unique {address' : Address} {fault' : FileFault}
    (h : StopsFirst t top extensions root address fault)
    (h' : StopsFirst t top extensions root address' fault') :
    address = address' ∧ fault = fault' := by
  have haddress : address = address' := by
    rcases h.first h'.stops with heq | hlt
    · exact heq.symm
    · rcases h'.first h.stops with heq | hgt
      · exact heq
      · exact absurd hgt (List.lt_asymm hlt)
  subst haddress
  refine ⟨rfl, ?_⟩
  cases h.stops with
  | tooLong _ long =>
    cases h'.stops with
    | tooLong => rfl
    | noText _ opens => exact absurd opens long
  | noText _ opens =>
    cases h'.stops with
    | tooLong _ long => exact absurd opens long
    | noText => rfl

theorem Reads.unique (h : Reads t top extensions root result)
    (h' : Reads t top extensions root result') : result = result' := by
  cases h with
  | all selection goes =>
    cases h' with
    | all selection' => rw [selection.unique selection']
    | stopped first => exact absurd first.stops (goes _ _)
  | stopped first =>
    cases h' with
    | all _ goes => exact absurd first.stops (goes _ _)
    | stopped first' =>
      obtain ⟨rfl, rfl⟩ := first.unique first'
      rfl

theorem Stops.congr (h : Stops t top extensions root address fault)
    (hopened : IsOpened t top extensions address → IsOpened t' top' extensions address)
    (hselects : ∀ bytes, Selects t top extensions address bytes →
      Selects t' top' extensions address bytes) :
    Stops t' top' extensions root address fault := by
  cases h with
  | tooLong opened long => exact .tooLong (hopened opened) long
  | noText selected opens bad => exact .noText (hselects _ selected) opens bad

/-- Nothing but the selected files and the entered directories counts. -/
theorem Reads.congr (h : Reads t top extensions root result)
    (henters : ∀ address, Enters t' top' address ↔ Enters t top address)
    (hselects : ∀ address bytes,
      Selects t' top' extensions address bytes ↔ Selects t top extensions address bytes) :
    Reads t' top' extensions root result := by
  have hopened : ∀ address, IsOpened t' top' extensions address ↔
      IsOpened t top extensions address := fun address => by
    simp only [IsOpened, henters, hselects]
  have hstops : ∀ {address fault}, Stops t' top' extensions root address fault ↔
      Stops t top extensions root address fault := by
    intro address fault
    constructor
    · exact fun h => h.congr (hopened address).1 fun bytes => (hselects address bytes).1
    · exact fun h => h.congr (hopened address).2 fun bytes => (hselects address bytes).2
  cases h with
  | all selection goes =>
    refine .all ⟨fun address bytes => ?_, selection.ascending⟩ fun address fault hstop =>
      goes address fault (hstops.1 hstop)
    rw [selection.mem, hselects]
  | stopped first =>
    exact .stopped ⟨hstops.2 first.stops, fun hother => first.first (hstops.1 hother)⟩

/-! ## Reading the flat list -/

theorem find?_isNone_of_texts (h : ∀ file ∈ files, String.fromUTF8? file.2 ≠ none) :
    files.find? (fun file => (String.fromUTF8? file.2).isNone) = none := by
  rw [List.find?_eq_none]
  intro file hfile hnone
  exact h file hfile (Option.isNone_iff_eq_none.1 hnone)

theorem readFiles_of_texts (h : ∀ file ∈ files, String.fromUTF8? file.2 ≠ none) :
    readFiles root files = .ok (files.flatMap fileRoutes) := by
  rw [readFiles, find?_isNone_of_texts h]

theorem readFiles_of_bad {before after : List (Address × ByteArray)}
    (hbefore : ∀ file ∈ before, String.fromUTF8? file.2 ≠ none)
    (hbad : String.fromUTF8? bytes = none) :
    readFiles root (before ++ (address, bytes) :: after) =
      .error (.file (Path.below root address) .notUtf8) := by
  rw [readFiles, List.find?_append, find?_isNone_of_texts hbefore, Option.none_or,
    List.find?_cons_of_pos]
  exact Option.isNone_iff_eq_none.2 hbad

/-- Where every path can be opened, the files alone decide. -/
theorem Reads.eq_readFiles (h : Reads t top extensions root result)
    (selection : IsSelection t top extensions files)
    (hopens : ∀ address, IsOpened t top extensions address → Opens root address) :
    result = readFiles root files := by
  have hstops : ∀ {address bytes}, (address, bytes) ∈ files → String.fromUTF8? bytes = none →
      Stops t top extensions root address .notUtf8 := by
    intro address bytes hfile hbad
    have hselected := (selection.mem address bytes).1 hfile
    exact .noText hselected (hopens address (.inr ⟨bytes, hselected⟩)) hbad
  cases h with
  | all selection' goes =>
    have htexts : ∀ file ∈ files, String.fromUTF8? file.2 ≠ none := fun _ hfile hbad =>
      goes _ _ (hstops hfile hbad)
    rw [selection'.unique selection, readFiles_of_texts htexts]
  | @stopped address _ first =>
    cases first.stops with
    | tooLong hopened long => exact absurd (hopens address hopened) long
    | @noText bytes hselected _ hbad =>
      obtain ⟨before, after, hfiles⟩ :=
        List.append_of_mem ((selection.mem address bytes).2 hselected)
      have hascending := selection.ascending
      rw [hfiles, List.pairwise_append] at hascending
      rw [hfiles, readFiles_of_bad _ hbad]
      -- a file before this one that is no text would end the scan before
      rintro ⟨earlier, other⟩ hbefore hother
      have hmem : (earlier, other) ∈ files := by
        rw [hfiles]
        exact List.mem_append_left _ hbefore
      have hlt := hascending.2.2 _ hbefore _ List.mem_cons_self
      rcases first.first (hstops hmem hother) with rfl | hgt
      · exact List.lt_irrefl _ hlt
      · exact List.lt_asymm hlt hgt

/-! ## The walk and the flat list -/

theorem file_mem_opened_iff (hget : t.get? top = some (.directory entries)) :
    (address, .file bytes) ∈ opened extensions entries ↔
      Selects t top extensions address bytes := by
  rw [← FileTree.mem_filesAmong, mem_files_opened hget]
  simp only [entersDirectory_iff, hasExtension_iff]
  constructor
  · rintro ⟨⟨hne, haround, extension, hextension, hwanted⟩, hfile⟩
    refine ⟨hfile, ⟨_, extension, ?_, hextension, hwanted⟩, haround⟩
    rw [List.getLast?_eq_some_getLast hne, Option.getD_some]
  · rintro ⟨hfile, ⟨name, extension, hlast, hextension, hwanted⟩, haround⟩
    refine ⟨⟨?_, haround, extension, ?_, hwanted⟩, hfile⟩
    · rintro rfl
      cases hlast
    · rwa [hlast]

theorem directory_mem_opened_iff (hget : t.get? top = some (.directory entries))
    (extensions : List String) :
    (∃ inner, (address, .directory inner) ∈ opened extensions entries) ↔ Enters t top address := by
  simp only [opened, List.mem_filter, isOpened, and_true, FileTree.Reaches, Node.way,
    FileTree.mem_walkEntries (FileTree.orderedEntries_of_get? hget), entersDirectory_iff,
    ← FileTree.get?_append hget]
  constructor
  · rintro ⟨inner, hne, hinner, hnames⟩
    exact ⟨FileTree.kind?_eq_directory_iff.2 ⟨inner, hinner⟩, hne, hnames⟩
  · rintro ⟨hdirectory, hne, hnames⟩
    obtain ⟨inner, hinner⟩ := FileTree.kind?_eq_directory_iff.1 hdirectory
    exact ⟨inner, hne, hinner, hnames⟩

theorem mem_opened_iff (hget : t.get? top = some (.directory entries)) :
    (∃ node, (address, node) ∈ opened extensions entries) ↔
      IsOpened t top extensions address := by
  rw [IsOpened, ← directory_mem_opened_iff hget extensions]
  simp only [← file_mem_opened_iff hget]
  constructor
  · rintro ⟨node, hmem⟩
    cases node with
    | directory inner => exact .inl ⟨inner, hmem⟩
    | file bytes => exact .inr ⟨bytes, hmem⟩
    | link target => simp [opened, isOpened] at hmem
  · rintro (⟨inner, hmem⟩ | ⟨bytes, hmem⟩)
    · exact ⟨_, hmem⟩
    · exact ⟨_, hmem⟩

theorem stop?_opened_iff (hget : t.get? top = some (.directory entries)) :
    (∃ node, (address, node) ∈ opened extensions entries ∧
      stop? root (address, node) = some fault) ↔ Stops t top extensions root address fault := by
  constructor
  · rintro ⟨node, hmem, hstop⟩
    rcases stop?_eq_some_iff.1 hstop with ⟨hlong, rfl⟩ | ⟨hopens, ⟨bytes, rfl, htext⟩, rfl⟩
    · exact .tooLong ((mem_opened_iff hget).1 ⟨node, hmem⟩) hlong
    · exact .noText ((file_mem_opened_iff hget).1 hmem) hopens htext
  · rintro (⟨hopened, hlong⟩ | ⟨hselected, hopens, htext⟩)
    · obtain ⟨node, hmem⟩ := (mem_opened_iff hget).2 hopened
      exact ⟨node, hmem, stop?_eq_some_iff.2 (.inl ⟨hlong, rfl⟩)⟩
    · exact ⟨_, (file_mem_opened_iff hget).2 hselected,
        stop?_eq_some_iff.2 (.inr ⟨hopens, ⟨_, rfl, htext⟩, rfl⟩)⟩

theorem isSelection_opened (hget : t.get? top = some (.directory entries))
    (extensions : List String) :
    IsSelection t top extensions (FileTree.filesAmong (opened extensions entries)) where
  mem address bytes := by rw [FileTree.mem_filesAmong, file_mem_opened_iff hget]
  ascending := (pairwise_opened extensions (FileTree.orderedEntries_of_get? hget)).imp
    Text.map_bytesOf_lt

theorem reads_scanEntries (hget : t.get? top = some (.directory entries)) :
    Reads t top extensions root (scanEntries root (opened extensions entries)).value := by
  rcases value_scanEntries_cases root (opened extensions entries) with
    ⟨hall, hvalue⟩ | ⟨before, ⟨address, node⟩, after, fault, hmet, hbefore, hstop, hvalue⟩
  · rw [hvalue]
    refine .all (isSelection_opened hget extensions) fun address fault hstops => ?_
    obtain ⟨node, hmem, hstop⟩ := (stop?_opened_iff hget).2 hstops
    rw [hall _ hmem] at hstop
    cases hstop
  · rw [hvalue]
    have hmem : (address, node) ∈ opened extensions entries := by
      rw [hmet]
      exact List.mem_append_right _ List.mem_cons_self
    have hstops := (stop?_opened_iff hget).1 ⟨node, hmem, hstop⟩
    refine .stopped ⟨hstops, fun {other otherFault} hother => ?_⟩
    obtain ⟨otherNode, hotherMem, hotherStop⟩ := (stop?_opened_iff hget).2 hother
    have hascending : (opened extensions entries).Pairwise fun met later => met.1 < later.1 :=
      (FileTree.pairwise_walkEntries (FileTree.orderedEntries_of_get? hget)).filter _
    rw [hmet, List.pairwise_append, List.pairwise_cons] at hascending
    rw [hmet, List.mem_append, List.mem_cons] at hotherMem
    rcases hotherMem with hearlier | heq | hlater
    · rw [hbefore _ hearlier] at hotherStop
      cases hotherStop
    · exact .inl (congrArg Prod.fst heq)
    · exact .inr (Text.map_bytesOf_lt (hascending.2.1.1 _ hlater))

theorem exists_entriesOf_of_isRoot (h : IsRoot t root top) (extensions : List String) :
    ∃ entries, t.get? top = some (.directory entries) ∧
      entriesOf t extensions root = .ok (opened extensions entries) := by
  obtain ⟨entries, hget⟩ := FileTree.kind?_eq_directory_iff.1 h.directory
  have hreading := FileTree.locate_eq_ok_iff.2 ⟨h.leads, hget⟩
  refine ⟨entries, hget, ?_⟩
  rw [entriesOf]
  rcases FileTree.resolve_inspecting h.leads with hsame | ⟨there, target, hthere, hlink⟩
  · rw [FileTree.locate_eq_ok_iff.2 ⟨hsame, hget⟩]
  · rw [FileTree.locate_eq_ok_iff.2 ⟨hthere, FileTree.kind?_eq_link_iff.1 hlink⟩]
    simp only [hreading]

theorem reads_scanTree (h : IsRoot t root top) (extensions : List String) :
    Reads t top extensions root (scanTree t extensions root).value := by
  obtain ⟨entries, hget, hentries⟩ := exists_entriesOf_of_isRoot h extensions
  rw [value_scanTree, hentries]
  exact reads_scanEntries hget

/-! ## The whole scan -/

/-- A scan of a directory reads the flat list of its files. Where a path is too long to be opened,
it ends at the first entry that stops it. Nothing but the selected files and the entered directories
has a say in it. -/
theorem scanTree_flat (h : IsRoot t root top) (extensions : List String) :
    ∃ files, IsSelection t top extensions files ∧
      ((∀ address, IsOpened t top extensions address → Opens root address) →
        (scanTree t extensions root).value = readFiles root files) ∧
      ((∃ address, IsOpened t top extensions address ∧ ¬ Opens root address) →
        ∃ address fault, StopsFirst t top extensions root address fault ∧
          (scanTree t extensions root).value =
            .error (.file (Path.below root address) fault)) ∧
      ∀ t' top', IsRoot t' root top' →
        (∀ address, Enters t' top' address ↔ Enters t top address) →
        (∀ address bytes, Selects t' top' extensions address bytes ↔
          Selects t top extensions address bytes) →
        (scanTree t' extensions root).value = (scanTree t extensions root).value := by
  obtain ⟨entries, hget, -⟩ := exists_entriesOf_of_isRoot h extensions
  have hreads := reads_scanTree h extensions
  have selection := isSelection_opened hget extensions
  refine ⟨_, selection, hreads.eq_readFiles selection, ?_, ?_⟩
  · rintro ⟨address, hopened, hlong⟩
    generalize (scanTree t extensions root).value = result at hreads
    cases hreads with
    | all _ goes => exact absurd (.tooLong hopened hlong) (goes address .nameTooLong)
    | stopped first => exact ⟨_, _, first, rfl⟩
  · intro t' top' h' henters hselects
    exact (reads_scanTree h' extensions).unique (hreads.congr henters hselects)

/-- The root has a name that is passed over below it. It is a link to a directory with files, a link
and a directory that is passed over. -/
theorem scanTree_flat_through_link :
    let text := "// @Router /a [get]\n".toUTF8
    let t := ({} : FileTree)
      |>.put ["vendor"] (.link ".src")
      |>.put [".src"] (.directory [])
      |>.put [".src", "B.GO"] (.file text)
      |>.put [".src", "a"] (.directory [])
      |>.put [".src", "a", "x.go"] (.file text)
      |>.put [".src", "a.rs"] (.file text)
      |>.put [".src", "c.go"] (.link "B.GO")
      |>.put [".src", "target"] (.directory [])
      |>.put [".src", "target", "d.go"] (.file text)
    let files := [(["B.GO"], text), (["a", "x.go"], text)]
    IsRoot t "vendor" [".src"] ∧ IsSelection t [".src"] ["go"] files ∧
      (scanTree t ["go"] "vendor").value = readFiles "vendor" files := by
  intro text t files
  have hleads : t.resolve .reading "vendor" = .ok (.found [".src"]) := by decide +kernel
  have hroot : IsRoot t "vendor" [".src"] := by
    have hdirectory : t.isDirectory "vendor" = true := by decide +kernel
    obtain ⟨top, htop, hkind⟩ := FileTree.isDirectory_iff.1 hdirectory
    cases hleads.symm.trans htop
    exact ⟨hleads, hkind⟩
  obtain ⟨entries, hget, hentries⟩ := exists_entriesOf_of_isRoot hroot ["go"]
  have hfiles : (entriesOf t ["go"] "vendor").toOption.map FileTree.filesAmong = some files := by
    decide +kernel
  have hopens : (entriesOf t ["go"] "vendor").toOption.map
      (·.all fun entry => decide (Opens "vendor" entry.1)) = some true := by decide +kernel
  rw [hentries] at hfiles hopens
  have selection : IsSelection t [".src"] ["go"] files :=
    Option.some.inj hfiles ▸ isSelection_opened hget ["go"]
  obtain ⟨found, selection', hread, -⟩ := scanTree_flat hroot ["go"]
  rw [selection'.unique selection] at hread
  refine ⟨hroot, selection, hread fun address hopened => ?_⟩
  obtain ⟨node, hmem⟩ := (mem_opened_iff hget).2 hopened
  exact of_decide_eq_true (List.all_eq_true.1 (Option.some.inj hopens) _ hmem)

/-- The first file that is no text ends the scan. One in a directory that is passed over does not. -/
example :
    let bytes : ByteArray := ⟨#[0xff]⟩
    let t := ({} : FileTree)
      |>.put ["b.go"] (.file bytes)
      |>.put ["c.go"] (.file bytes)
      |>.put [".git"] (.directory [])
      |>.put [".git", "a.go"] (.file bytes)
    (scanTree t ["go"] ".").value = .error (.file "./b.go" .notUtf8) := by
  decide +kernel

/-! ## A scan that ends at a long path -/

/-- A scan always gives what the files alone give. -/
def ReadsFlat (t : FileTree) (extensions : List String) (root : String) : Prop :=
  ∀ top files, IsRoot t root top → IsSelection t top extensions files →
    (scanTree t extensions root).value = readFiles root files

section

variable {size : Nat}

theorem isRoot_of_isLongRoot (h : IsLongRoot root size) (t : FileTree) : IsRoot t root [] where
  leads := by
    have keeps : FileTree.Keeps t t := ⟨fun hfile => ⟨_, hfile⟩, id, id⟩
    exact FileTree.resolve_of_keeps (h.resolve t) keeps (.inr rfl) (.of_directory t.kind?_nil)
  directory := t.kind?_nil

theorem not_readsFlat_of_not_opens (h : IsLongRoot root size)
    (htexts : AllTexts (opened extensions t.entries)) (address : Address)
    (hopened : address ∈ (opened extensions t.entries).map Prod.fst)
    (hnot : ¬ Opens root address) : ¬ ReadsFlat t extensions root := by
  intro hreads
  have hvalue := hreads [] _ (isRoot_of_isLongRoot h t) (isSelection_opened rfl extensions)
  obtain ⟨met, hmet, rfl⟩ := List.mem_map.1 hopened
  obtain ⟨entry, -, -, hfailed⟩ :=
    value_scanEntries_of_not_opens htexts fun hall => hnot (hall met hmet)
  rw [value_scanTree, h.entriesOf, readFiles_of_texts htexts] at hvalue
  cases hfailed.symm.trans hvalue

end

/-- The one file is a text, but the way to it is so long that it can not be opened. -/
theorem not_readsFlat :
    ¬ ReadsFlat (({} : FileTree).put ["abcdef.go"] (.file "// @Router /a [get]\n".toUTF8)) ["go"]
      (dots 2045) := by
  have hlong : IsLongRoot (dots 2045) 4090 := isLongRoot_dots (by decide) rfl (by decide)
  generalize dots 2045 = root at hlong
  refine not_readsFlat_of_not_opens hlong (by decide +kernel) ["abcdef.go"] (by decide +kernel) ?_
  rw [hlong.opens_iff]
  decide

end RoutePolicy.Source
