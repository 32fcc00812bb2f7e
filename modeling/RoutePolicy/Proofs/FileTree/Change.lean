import RoutePolicy.FileTree.Change
import RoutePolicy.Proofs.FileTree.Follow

/-!
# What a change leaves behind

A change that fails leaves the tree as it was, or, where it makes several directories, with those
that it made before. Each directory that was made is told by the path that it was made for
(`onlyMakes_ensureChain`), and a change that was made needs not be made again
(`ensureChain_of_keeps`, `Writes.again`).
-/

namespace RoutePolicy.FileTree

/-- A directory that was made for one of some paths. -/
structure MadeFor (paths : List String) (t t' : FileTree) (address : Address) : Prop where
  vacant : t.kind? address = none
  made : t'.kind? address = some .directory
  path : ∃ path ∈ paths, t'.resolve .reading path = .ok (.found address)

/-- Nothing but directories for some paths was made. -/
def OnlyMakes (paths : List String) (t t' : FileTree) : Prop :=
  ∀ address, t'.kind? address = t.kind? address ∨ MadeFor paths t t' address

/-- A file was written where a path leads, and nothing else was done. -/
structure Writes (path : String) (bytes : ByteArray) (t t' : FileTree) (place : Address) :
    Prop where
  takes : t.Takes place
  kind : ∀ address, t'.kind? address =
    if address = place then some (.file bytes) else t.kind? address
  keeps : Keeps t t'
  read : t'.resolve .reading path = .ok (.found place)
  written : t'.resolve .writing path = .ok (.found place)

structure HasDirectory (t : FileTree) (path : String) : Prop where
  taken : t.freeAddress path = .error .alreadyExists
  directory : t.isDirectory path = true

variable {t t' t'' : FileTree} {path : String} {address place : Address} {paths : List String}
  {bytes : ByteArray} {spot : Spot}

namespace OnlyMakes

theorem refl (paths : List String) (t : FileTree) : OnlyMakes paths t t := fun _ => Or.inl rfl

theorem keeps (h : OnlyMakes paths t t') : Keeps t t' := by
  have hsame : ∀ {address kind}, t.kind? address = some kind → t'.kind? address = some kind := by
    intro address kind hkind
    rcases h address with hsame | hmade
    · rw [hsame, hkind]
    · rw [hmade.vacant] at hkind
      cases hkind
  exact ⟨fun hfile => ⟨_, hsame hfile⟩, hsame, hsame⟩

theorem mono {more : List String} (h : OnlyMakes paths t t') (hsub : paths ⊆ more) :
    OnlyMakes more t t' := fun address =>
  (h address).imp_right fun made =>
    ⟨made.vacant, made.made, made.path.imp fun _ hpath => hpath.imp_left (hsub ·)⟩

theorem trans (h : OnlyMakes paths t t') (h' : OnlyMakes paths t' t'') :
    OnlyMakes paths t t'' := by
  intro address
  rcases h address with hsame | made
  · rcases h' address with hsame' | made'
    · exact .inl (hsame'.trans hsame)
    · exact .inr ⟨hsame ▸ made'.vacant, made'.made, made'.path⟩
  · have hmade : t''.kind? address = some .directory := h'.keeps.directory made.made
    obtain ⟨path, hpath, hresolve⟩ := made.path
    exact .inr ⟨made.vacant, hmade, path, hpath, resolve_found_of_keeps hresolve h'.keeps⟩

end OnlyMakes

/-- The pieces of a path without the empty ones at its end. -/
def openPieces (path : String) : List String :=
  ((Path.pieces path).reverse.dropWhile (· == "")).reverse

theorem exists_openPieces (path : String) :
    ∃ more, openPieces path ++ more = Path.pieces path ∧ ∀ piece ∈ more, Path.isFiller piece := by
  refine ⟨((Path.pieces path).reverse.takeWhile (· == "")).reverse, ?_, ?_⟩
  · rw [openPieces, ← List.reverse_append, List.takeWhile_append_dropWhile, List.reverse_reverse]
  · intro piece hpiece
    have hempty := List.all_eq_true.1 List.all_takeWhile piece (List.mem_reverse.1 hpiece)
    rw [Path.isFiller, hempty, Bool.true_or]

theorem freeAddress_eq :
    t.freeAddress path =
      match refusal? path with
      | some fault => .error fault
      | none =>
        match t.follow .inspecting linkBudget [] (openPieces path) with
        | .error fault => .error fault
        | .ok (.found _) => .error .alreadyExists
        | .ok (.vacant address) => .ok address := rfl

theorem leads_of_freeAddress (h : t.freeAddress path = .ok address) :
    refusal? path = none ∧
      t.Leads .inspecting linkBudget [] (openPieces path) (.vacant address) := by
  rw [freeAddress_eq] at h
  split at h
  · cases h
  · next hrefusal =>
    split at h
    · cases h
    · cases h
    · next found hfollow => exact ⟨hrefusal, Except.ok.inj h ▸ follow_eq_ok_iff.1 hfollow⟩

theorem takes_of_freeAddress (h : t.freeAddress path = .ok address) :
    t.Takes address ∧ t.kind? address = none := by
  obtain ⟨hne, hparent, hnone⟩ := (leads_of_freeAddress h).2.isIn t.kind?_nil
  exact ⟨⟨hne, hparent, fun hkind => absurd (hnone.symm.trans hkind) (by simp)⟩, hnone⟩

theorem freeAddress_eq_alreadyExists (hrefusal : refusal? path = none)
    (h : t.Leads .inspecting linkBudget [] (openPieces path) (.found address)) :
    t.freeAddress path = .error .alreadyExists := by
  rw [freeAddress_eq, hrefusal, follow_eq_ok_iff.2 h]

/-- To exist already is no fault of a path that is followed. -/
theorem leg_ne_alreadyExists {p : Purpose} {here : Address} {pieces : List String} :
    t.leg p here pieces ≠ .blocked .alreadyExists := by
  fun_induction leg t p here pieces with
  | case3 => assumption
  | case4 => assumption
  | case10 => assumption
  | _ => exact fun h => by cases h

theorem follow_ne_alreadyExists {p : Purpose} {budget : Nat} {here : Address}
    {pieces : List String} : t.follow p budget here pieces ≠ .error .alreadyExists := by
  induction budget generalizing here pieces with
  | zero =>
    rw [follow]
    split
    · exact fun h => by cases h
    · next hblocked => exact fun h => leg_ne_alreadyExists (Except.error.inj h ▸ hblocked)
    · exact fun h => by cases h
  | succ budget ih =>
    rw [follow]
    split
    · exact fun h => by cases h
    · next hblocked => exact fun h => leg_ne_alreadyExists (Except.error.inj h ▸ hblocked)
    · split
      · exact fun h => by cases h
      · exact ih

theorem refusal?_ne_alreadyExists : refusal? path ≠ some .alreadyExists := by
  rw [refusal?]
  repeat' split
  all_goals exact fun h => by cases h

theorem exists_leads_of_taken (h : t.freeAddress path = .error .alreadyExists) :
    refusal? path = none ∧
      ∃ address, t.Leads .inspecting linkBudget [] (openPieces path) (.found address) := by
  rw [freeAddress_eq] at h
  split at h
  · next fault hrefusal =>
    exact absurd (hrefusal.trans (congrArg some (Except.error.inj h))) refusal?_ne_alreadyExists
  · next hrefusal =>
    split at h
    · next fault hfollow =>
      exact absurd (hfollow.trans (congrArg _ (Except.error.inj h))) follow_ne_alreadyExists
    · next found hfollow => exact ⟨hrefusal, found, follow_eq_ok_iff.1 hfollow⟩
    · cases h

theorem HasDirectory.of_keeps (h : t.HasDirectory path) (keeps : Keeps t t') :
    t'.HasDirectory path := by
  -- one who makes a directory does not follow a link at the end, so the two may lead apart
  obtain ⟨hrefusal, address, hleads⟩ := exists_leads_of_taken h.taken
  obtain ⟨place, hresolve, hkind⟩ := isDirectory_iff.1 h.directory
  have hend : t'.IsEnd .inspecting address := (hleads.isIn t.kind?_nil).of_keeps keeps
  exact {
    taken := freeAddress_eq_alreadyExists hrefusal (hleads.of_keeps keeps (.inl rfl) hend)
    directory := isDirectory_iff.2
      ⟨place, resolve_found_of_keeps hresolve keeps, keeps.directory hkind⟩ }

/-! ## Making directories -/

section Making

variable (h : t.freeAddress path = .ok address)

include h

theorem kind?_put_of_freeAddress (other : Address) :
    (t.put address (.directory [])).kind? other =
      if other = address then some .directory else t.kind? other :=
  kind?_put (takes_of_freeAddress h).1 Node.bare_directory other

theorem keeps_put_of_freeAddress : Keeps t (t.put address (.directory [])) :=
  .put (takes_of_freeAddress h).1 Node.bare_directory (.inl (takes_of_freeAddress h).2)

theorem resolve_put_of_freeAddress :
    (t.put address (.directory [])).resolve .reading path = .ok (.found address) := by
  obtain ⟨hrefusal, hleads⟩ := leads_of_freeAddress h
  have hkind : (t.put address (.directory [])).kind? address = some .directory := by
    rw [kind?_put_of_freeAddress h, if_pos rfl]
  -- one who reads the path has the empty pieces at its end too, and they change nothing
  have hopen := hleads.of_keeps (keeps_put_of_freeAddress h) (q := .reading) (.inr rfl)
    (.of_directory hkind)
  obtain ⟨more, hpieces, hfillers⟩ := exists_openPieces path
  have hwhole := hopen.append_fillers hkind hfillers
  rw [hpieces] at hwhole
  exact resolve_eq_ok_iff.2 ⟨hrefusal, hwhole⟩

theorem hasDirectory_put_of_freeAddress : (t.put address (.directory [])).HasDirectory path := by
  obtain ⟨hrefusal, hleads⟩ := leads_of_freeAddress h
  have hkind : (t.put address (.directory [])).kind? address = some .directory := by
    rw [kind?_put_of_freeAddress h, if_pos rfl]
  have hinspected := hleads.of_keeps (keeps_put_of_freeAddress h) (.inl rfl)
    (.of_directory hkind)
  exact {
    taken := freeAddress_eq_alreadyExists hrefusal hinspected
    directory := isDirectory_iff.2 ⟨address, resolve_put_of_freeAddress h, hkind⟩ }

theorem onlyMakes_put_of_freeAddress : OnlyMakes [path] t (t.put address (.directory [])) := by
  intro other
  rw [kind?_put_of_freeAddress h]
  split
  · next heq =>
    subst heq
    refine .inr ⟨(takes_of_freeAddress h).2, ?_, path, List.mem_singleton_self path,
      resolve_put_of_freeAddress h⟩
    rw [kind?_put_of_freeAddress h, if_pos rfl]
  · exact .inl rfl

end Making

/-- A directory is made, or the tree is left as it is. -/
theorem ensureDirectory_cases (t : FileTree) (path : String) :
    (∃ address, t.freeAddress path = .ok address ∧
      t.ensureDirectory path = ⟨t.put address (.directory []), none⟩) ∨
    (t.HasDirectory path ∧ t.ensureDirectory path = ⟨t, none⟩) ∨
    ∃ fault, t.ensureDirectory path = ⟨t, some fault⟩ := by
  cases hfree : t.freeAddress path with
  | ok address =>
    refine .inl ⟨address, rfl, ?_⟩
    simp only [ensureDirectory, makeDirectory, hfree, reduceCtorEq, false_and, if_false]
  | error fault =>
    simp only [ensureDirectory, makeDirectory, hfree, Option.some.injEq]
    split
    · next h => exact .inr (.inl ⟨⟨h.1 ▸ hfree, h.2⟩, rfl⟩)
    · exact .inr (.inr ⟨fault, rfl⟩)

theorem ensureDirectory_of_hasDirectory (h : t.HasDirectory path) :
    t.ensureDirectory path = ⟨t, none⟩ := by
  simp only [ensureDirectory, makeDirectory, h.taken, h.directory, and_self, if_true]

theorem onlyMakes_ensureDirectory (t : FileTree) (path : String) :
    OnlyMakes [path] t (t.ensureDirectory path).tree := by
  rcases ensureDirectory_cases t path with ⟨address, hfree, h⟩ | ⟨-, h⟩ | ⟨fault, h⟩
  · rw [h]
    exact onlyMakes_put_of_freeAddress hfree
  · rw [h]
    exact .refl _ t
  · rw [h]
    exact .refl _ t

theorem hasDirectory_ensureDirectory (h : (t.ensureDirectory path).fault = none) :
    (t.ensureDirectory path).tree.HasDirectory path := by
  rcases ensureDirectory_cases t path with ⟨address, hfree, heq⟩ | ⟨hhas, heq⟩ | ⟨fault, heq⟩
  · rw [heq]
    exact hasDirectory_put_of_freeAddress hfree
  · rw [heq]
    exact hhas
  · rw [heq] at h
    cases h

theorem ensureChain_cons (t : FileTree) (path : String) (around : List String) :
    t.ensureChain (path :: around) =
      if (t.ensureDirectory path).fault = some .notFound then
        match (t.ensureChain around).fault with
        | some _ => t.ensureChain around
        | none => (t.ensureChain around).tree.ensureDirectory path
      else t.ensureDirectory path := rfl

theorem onlyMakes_ensureChain (t : FileTree) (paths : List String) :
    OnlyMakes paths t (t.ensureChain paths).tree := by
  induction paths with
  | nil => exact .refl _ t
  | cons path around ih =>
    have hfirst : [path] ⊆ path :: around := List.cons_subset_cons path (List.nil_subset around)
    rw [ensureChain_cons]
    split
    · have houter := ih.mono (List.subset_cons_self path around)
      split
      · exact houter
      · exact houter.trans ((onlyMakes_ensureDirectory _ path).mono hfirst)
    · exact (onlyMakes_ensureDirectory t path).mono hfirst

theorem hasDirectory_ensureChain {around : List String}
    (h : (t.ensureChain (path :: around)).fault = none) :
    (t.ensureChain (path :: around)).tree.HasDirectory path := by
  rw [ensureChain_cons] at h ⊢
  split
  · next hmissing =>
    rw [if_pos hmissing] at h
    split
    · next hfault =>
      simp only [hfault] at h
      cases h
    · next hfault =>
      simp only [hfault] at h
      exact hasDirectory_ensureDirectory h
  · next hmissing =>
    rw [if_neg hmissing] at h
    exact hasDirectory_ensureDirectory h

/-- Where directories were made once, there is nothing to do. -/
theorem ensureChain_of_keeps (h : (t.ensureChain paths).fault = none)
    (keeps : Keeps (t.ensureChain paths).tree t') : t'.ensureChain paths = ⟨t', none⟩ := by
  cases paths with
  | nil => rfl
  | cons path around =>
    have hhas := (hasDirectory_ensureChain h).of_keeps keeps
    simp only [ensureChain, ensureDirectory_of_hasDirectory hhas, reduceCtorEq, if_false]

/-! ## Writing a file -/

/-- Where a file is to be written. -/
theorem takes_of_resolve_writing (h : t.resolve .writing path = .ok spot)
    (hnot : t.kind? spot.address ≠ some .directory) : t.Takes spot.address := by
  have hspot := isIn_of_resolve h
  cases spot with
  | vacant address =>
    obtain ⟨hne, hparent, hnone⟩ := hspot
    exact ⟨hne, hparent, fun hkind => absurd (hnone.symm.trans hkind) (by simp)⟩
  | found address =>
    obtain ⟨kind, hkind, hlink⟩ := hspot
    refine ⟨?_, kind?_dropLast hkind, fun {kind'} hkind' => ?_⟩
    · rintro rfl
      exact hnot t.kind?_nil
    · cases Option.some.inj (hkind.symm.trans hkind')
      cases kind with
      | file bytes => exact ⟨bytes, rfl⟩
      | link target => exact absurd (hlink target rfl) (by decide)
      | directory => exact absurd hkind hnot

theorem writeFile_cases (t : FileTree) (path : String) (bytes : ByteArray) :
    (∃ fault, t.writeFile path bytes = ⟨t, some fault⟩) ∨
    ∃ spot, t.resolve .writing path = .ok spot ∧ t.Takes spot.address ∧
      t.writeFile path bytes = ⟨t.put spot.address (.file bytes), none⟩ := by
  rw [writeFile]
  cases hresolve : t.resolve .writing path with
  | error fault => exact .inl ⟨fault, rfl⟩
  | ok spot =>
    cases spot with
    | vacant address =>
      refine .inr ⟨_, rfl, takes_of_resolve_writing hresolve ?_, rfl⟩
      rw [Spot.address, (isIn_of_resolve hresolve).2.2]
      exact fun h => by cases h
    | found address =>
      by_cases hdirectory : t.kind? address = some .directory
      · obtain ⟨entries, hget⟩ := kind?_eq_directory_iff.1 hdirectory
        simp only [hget]
        exact .inl ⟨_, rfl⟩
      · refine .inr ⟨_, rfl, takes_of_resolve_writing hresolve hdirectory, ?_⟩
        simp only
        split
        · next entries hget => exact absurd (kind?_eq_directory_iff.2 ⟨entries, hget⟩) hdirectory
        · rfl

theorem writeFile_eq_of_fault (h : (t.writeFile path bytes).fault ≠ none) :
    (t.writeFile path bytes).tree = t := by
  rcases writeFile_cases t path bytes with ⟨fault, heq⟩ | ⟨spot, -, -, heq⟩
  · rw [heq]
  · rw [heq] at h
    exact absurd rfl h

theorem exists_writes_of_fault (h : (t.writeFile path bytes).fault = none) :
    ∃ place, Writes path bytes t (t.writeFile path bytes).tree place := by
  rcases writeFile_cases t path bytes with ⟨fault, heq⟩ | ⟨spot, hresolve, takes, heq⟩
  · rw [heq] at h
    cases h
  rw [heq]
  have hkind : ∀ address, (t.put spot.address (.file bytes)).kind? address =
      if address = spot.address then some (.file bytes) else t.kind? address :=
    kind?_put takes (Node.bare_file bytes)
  have keeps : Keeps t (t.put spot.address (.file bytes)) :=
    .put takes (Node.bare_file bytes) (.inr ⟨bytes, rfl⟩)
  have hend : ∀ p, (t.put spot.address (.file bytes)).IsEnd p spot.address := fun p =>
    .of_file ((hkind spot.address).trans (if_pos rfl))
  exact ⟨spot.address, {
    takes := takes
    kind := hkind
    keeps := keeps
    read := resolve_of_keeps hresolve keeps (.inr rfl) (hend .reading)
    written := resolve_of_keeps hresolve keeps (.inl rfl) (hend .writing) }⟩

theorem Writes.get? (h : Writes path bytes t t' place) : t'.get? place = some (.file bytes) :=
  kind?_eq_file_iff.1 ((h.kind place).trans (if_pos rfl))

theorem Writes.readBytes (h : Writes path bytes t t' place) : t'.readBytes path = .ok bytes := by
  rw [FileTree.readBytes, locate_eq_ok_iff.2 ⟨h.read, h.get?⟩]

/-- A file that was written needs not be written again. -/
theorem Writes.again (h : Writes path bytes t t' place) :
    t'.writeFile path bytes = ⟨t', none⟩ := by
  simp only [writeFile, h.written, h.get?]
  exact congrArg (Change.mk · none) (put_self h.get?)

end RoutePolicy.FileTree
