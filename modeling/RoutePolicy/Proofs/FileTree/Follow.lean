import RoutePolicy.FileTree.Lookup
import RoutePolicy.Proofs.FileTree.Entries

/-!
# Following a path

A path is followed by the kinds of what it meets. So where a path once led, it leads in every tree
that keeps what was there: to the same entry, or to the entry that was made in the meantime where
nothing was (`resolve_of_keeps`). One who looks at links goes the way of a reader until the last link
(`resolve_inspecting`).
-/

namespace RoutePolicy.FileTree

/-- The address that a path leads to, be there an entry or not. -/
def Spot.address : Spot → Address
  | .found address => address
  | .vacant address => address

/-- The address is where a path may end. A link is an end only for one who looks at links. -/
def IsEnd (t : FileTree) (purpose : Purpose) (address : Address) : Prop :=
  ∃ kind, t.kind? address = some kind ∧ ∀ target, kind = .link target → purpose = .inspecting

def Spot.IsIn (t : FileTree) (purpose : Purpose) : Spot → Prop
  | .found address => t.IsEnd purpose address
  | .vacant address =>
    address ≠ [] ∧ t.kind? address.dropLast = some .directory ∧ t.kind? address = none

/-- Pieces lead from a directory to a spot, with so many links on the way at most. -/
inductive Leads (t : FileTree) (purpose : Purpose) :
    (budget : Nat) → (here : Address) → (pieces : List String) → Spot → Prop
  | arrived {budget : Nat} {here : Address} {pieces : List String}
    {spot : Spot} (h : t.leg purpose here pieces = .arrived spot) :
    Leads t purpose budget here pieces spot
  | linked {budget : Nat} {here there : Address} {pieces rest : List String} {target : String}
    {spot : Spot}
    (h : t.leg purpose here pieces = .linked there target rest) (hne : target ≠ "")
    (further : Leads t purpose budget (linkBase there target) (Path.pieces target ++ rest) spot) :
    Leads t purpose (budget + 1) here pieces spot

variable {t t' : FileTree} {p q : Purpose} {here there address : Address} {piece : String}
  {rest pieces more : List String} {spot : Spot} {target path : String} {kind : Kind} {budget : Nat}

theorem IsEnd.of_file {bytes : ByteArray} (h : t.kind? address = some (.file bytes)) :
    t.IsEnd p address :=
  ⟨_, h, fun _ hlink => by cases hlink⟩

theorem IsEnd.of_directory (h : t.kind? address = some .directory) : t.IsEnd p address :=
  ⟨_, h, fun _ hlink => by cases hlink⟩

theorem IsEnd.of_keeps (h : t.IsEnd p address) (keeps : Keeps t t') : t'.IsEnd p address := by
  obtain ⟨kind, hkind, hlink⟩ := h
  cases kind with
  | file bytes =>
    obtain ⟨bytes', hkept⟩ := keeps.file hkind
    exact .of_file hkept
  | link target => exact ⟨_, keeps.link hkind, hlink⟩
  | directory => exact .of_directory (keeps.directory hkind)

/-! ## Legs -/

/-- A leg from the directory at `here` through the entry that a piece names. -/
def legAt (t : FileTree) (purpose : Purpose) (here : Address) (piece : String)
    (rest : List String) : Leg :=
  match t.kind? (here ++ [piece]) with
  | none => if rest = [] then .arrived (.vacant (here ++ [piece])) else .blocked .notFound
  | some (.file _) =>
    if rest = [] then .arrived (.found (here ++ [piece])) else .blocked .notADirectory
  | some .directory => t.leg purpose (here ++ [piece]) rest
  | some (.link target) =>
    if purpose = .inspecting ∧ rest = [] then .arrived (.found (here ++ [piece]))
    else .linked here target rest

theorem leg_cons :
    t.leg p here (piece :: rest) =
      if p = .writing ∧ namesNoFile piece rest then .blocked .isADirectory
      else if Path.isFiller piece then t.leg p here rest
      else if piece = ".." then t.leg p here.dropLast rest
      else if nameLimit < piece.utf8ByteSize then .blocked .nameTooLong
      else t.legAt p here piece rest := by
  simp only [leg, legAt, kind?]
  rcases t.get? (here ++ [piece]) with _ | (_ | _ | _) <;> rfl

/-- What comes of a leg in a tree that keeps what the leg met. -/
def Leg.GoesOn (t : FileTree) (purpose : Purpose) : Leg → Leg → Prop
  | .arrived spot, later => t.IsEnd purpose spot.address → later = .arrived (.found spot.address)
  | .linked here target rest, later => later = .linked here target rest
  | .blocked _, _ => True

theorem goesOn_legAt (keeps : Keeps t t') (hq : q = p ∨ q = .reading)
    (directory : (t.leg p (here ++ [piece]) rest).GoesOn t' q (t'.leg q (here ++ [piece]) rest)) :
    (t.legAt p here piece rest).GoesOn t' q (t'.legAt q here piece rest) := by
  cases hkind : t.kind? (here ++ [piece]) with
  | none =>
    by_cases hrest : rest = []
    · rw [legAt, hkind, hrest]
      rintro ⟨kind, hkind', hlink⟩
      replace hkind' : t'.kind? (here ++ [piece]) = some kind := hkind'
      rw [legAt, hkind']
      cases kind with
      | file => rfl
      | directory => rfl
      | link target => exact if_pos ⟨hlink target rfl, rfl⟩
    · simp only [legAt, hkind, if_neg hrest]
      trivial
  | some kind =>
    cases kind with
    | file bytes =>
      obtain ⟨bytes', hkept⟩ := keeps.file hkind
      simp only [legAt, hkind, hkept]
      split
      · exact fun _ => rfl
      · trivial
    | directory =>
      simp only [legAt, hkind, keeps.directory hkind]
      exact directory
    | link target =>
      have hkept := keeps.link hkind
      by_cases hend : p = .inspecting ∧ rest = []
      · simp only [legAt, hkind, hkept, if_pos hend]
        rintro ⟨kind, hkind', hlink⟩
        have hsame : kind = .link target := Option.some.inj (hkind'.symm.trans hkept)
        exact if_pos ⟨hlink target hsame, hend.2⟩
      · -- one who does not stop at the link for `p` does not stop when reading
        have hend' : ¬ (q = .inspecting ∧ rest = []) := by
          rintro ⟨rfl, hrest⟩
          exact hend ⟨(hq.resolve_right (by decide)).symm, hrest⟩
        simp only [legAt, hkind, hkept, if_neg hend, if_neg hend']
        rfl

theorem goesOn_leg {outcome : Leg} (keeps : Keeps t t') (hq : q = p ∨ q = .reading)
    (h : t.leg p here pieces = outcome) : outcome.GoesOn t' q (t'.leg q here pieces) := by
  subst h
  induction pieces generalizing here with
  | nil => exact fun _ => rfl
  | cons piece rest ih =>
    rw [leg_cons, leg_cons (t := t')]
    by_cases hfile : p = .writing ∧ namesNoFile piece rest
    · rw [if_pos hfile]
      trivial
    have hfile' : ¬ (q = .writing ∧ namesNoFile piece rest) := by
      rintro ⟨rfl, hrest⟩
      exact hfile ⟨(hq.resolve_right (by decide)).symm, hrest⟩
    rw [if_neg hfile, if_neg hfile']
    split
    · exact ih
    split
    · exact ih
    split
    · trivial
    · exact goesOn_legAt keeps hq ih

def Leg.IsIn (t : FileTree) (purpose : Purpose) : Leg → Prop
  | .arrived spot => spot.IsIn t purpose
  | .linked here _ _ => t.kind? here = some .directory
  | .blocked _ => True

theorem isIn_leg {outcome : Leg} (hhere : t.kind? here = some .directory)
    (h : t.leg p here pieces = outcome) : outcome.IsIn t p := by
  subst h
  induction pieces generalizing here with
  | nil => exact .of_directory hhere
  | cons piece rest ih =>
    rw [leg_cons]
    split
    · trivial
    split
    · exact ih hhere
    split
    · exact ih (kind?_dropLast hhere)
    split
    · trivial
    rw [legAt]
    split
    · next hnone =>
      split
      · refine ⟨List.append_ne_nil_of_right_ne_nil _ (List.cons_ne_nil _ _), ?_, hnone⟩
        rw [List.dropLast_concat]
        exact hhere
      · trivial
    · next hfile =>
      split
      · exact .of_file hfile
      · trivial
    · next hdirectory => exact ih hdirectory
    · next hlink =>
      split
      · next hend => exact ⟨_, hlink, fun _ _ => hend.1⟩
      · exact hhere

theorem leg_fillers (hp : p ≠ .writing) (hmore : ∀ piece ∈ more, Path.isFiller piece) :
    t.leg p here more = .arrived (.found here) := by
  induction more with
  | nil => rw [leg]
  | cons piece more ih =>
    obtain ⟨hpiece, hmore⟩ := List.forall_mem_cons.1 hmore
    rw [leg_cons, if_neg (fun hwriting => hp hwriting.1), if_pos hpiece, ih hmore]

/-- What comes of a leg that is read with more pieces behind it. -/
def Leg.Lengthened (t : FileTree) (more : List String) : Leg → Leg → Prop
  | .arrived spot, later =>
    t.kind? spot.address = some .directory → later = t.leg .reading spot.address more
  | .linked here target rest, later => later = .linked here target (rest ++ more)
  | .blocked _, _ => True

theorem lengthened_leg {outcome : Leg} (h : t.leg .reading here pieces = outcome) :
    outcome.Lengthened t more (t.leg .reading here (pieces ++ more)) := by
  subst h
  induction pieces generalizing here with
  | nil => exact fun _ => rfl
  | cons piece rest ih =>
    have hreading : ∀ rest, ¬ (Purpose.reading = .writing ∧ namesNoFile piece rest) :=
      fun _ h => absurd h.1 (by decide)
    rw [List.cons_append, leg_cons, leg_cons, if_neg (hreading _), if_neg (hreading _)]
    split
    · exact ih
    split
    · exact ih
    split
    · trivial
    rw [legAt, legAt]
    split
    · next hnone =>
      split
      · intro hdirectory
        rw [Spot.address, hnone] at hdirectory
        cases hdirectory
      · trivial
    · next hfile =>
      split
      · intro hdirectory
        rw [Spot.address, hfile] at hdirectory
        cases hdirectory
      · trivial
    · exact ih
    · have hnot : ∀ rest : List String, ¬ (Purpose.reading = .inspecting ∧ rest = []) :=
        fun _ h => absurd h.1 (by decide)
      rw [if_neg (hnot _), if_neg (hnot _)]
      rfl

/-- One who looks at links goes the way of a reader, or stops at a link that the reader follows. -/
theorem leg_inspecting (t : FileTree) (here : Address) (pieces : List String) :
    t.leg .inspecting here pieces = t.leg .reading here pieces ∨
      ∃ there target, t.leg .inspecting here pieces = .arrived (.found there) ∧
        t.kind? there = some (.link target) := by
  induction pieces generalizing here with
  | nil => exact .inl rfl
  | cons piece rest ih =>
    have hwriting : ∀ {q : Purpose}, q ≠ .writing → ¬ (q = .writing ∧ namesNoFile piece rest) :=
      fun hq h => hq h.1
    rw [leg_cons, leg_cons, if_neg (hwriting (by decide)), if_neg (hwriting (by decide))]
    split
    · exact ih _
    split
    · exact ih _
    split
    · exact .inl rfl
    rw [legAt, legAt]
    split
    · exact .inl rfl
    · exact .inl rfl
    · exact ih _
    · next target hlink =>
      have hreading : ¬ (Purpose.reading = .inspecting ∧ rest = []) := fun h =>
        absurd h.1 (by decide)
      by_cases hrest : rest = []
      · rw [if_pos ⟨rfl, hrest⟩]
        exact .inr ⟨_, target, rfl, hlink⟩
      · rw [if_neg fun h => hrest h.2, if_neg hreading]
        exact .inl rfl

/-! ## Whole paths -/

theorem follow_eq_ok_iff :
    t.follow p budget here pieces = .ok spot ↔ t.Leads p budget here pieces spot := by
  constructor
  · intro h
    induction budget generalizing here pieces with
    | zero =>
      rw [follow] at h
      split at h
      · next found harrived => exact .arrived (Except.ok.inj h ▸ harrived)
      · cases h
      · cases h
    | succ budget ih =>
      rw [follow] at h
      split at h
      · next found harrived => exact .arrived (Except.ok.inj h ▸ harrived)
      · cases h
      · next hlinked =>
        split at h
        · cases h
        · next hne => exact .linked hlinked hne (ih h)
  · intro h
    induction h with
    | @arrived budget _ _ _ h => cases budget <;> rw [follow, h]
    | linked h hne _ ih => rw [follow, h, ← ih]; exact if_neg hne

theorem kind?_linkBase (h : t.kind? here = some .directory) :
    t.kind? (linkBase here target) = some .directory := by
  rw [linkBase]
  split
  · exact t.kind?_nil
  · exact h

theorem Leads.isIn (h : t.Leads p budget here pieces spot)
    (hhere : t.kind? here = some .directory) : spot.IsIn t p := by
  induction h with
  | arrived h => exact isIn_leg hhere h
  | linked h _ _ ih => exact ih (kind?_linkBase (isIn_leg hhere h))

theorem Leads.of_keeps (h : t.Leads p budget here pieces spot) (keeps : Keeps t t')
    (hq : q = p ∨ q = .reading) (hend : t'.IsEnd q spot.address) :
    t'.Leads q budget here pieces (.found spot.address) := by
  induction h with
  | arrived h => exact .arrived (goesOn_leg keeps hq h hend)
  | linked h hne _ ih => exact .linked (goesOn_leg keeps hq h) hne (ih hend)

/-- Fillers behind a path to a directory change nothing. -/
theorem Leads.append_fillers (h : t.Leads .reading budget here pieces spot)
    (hend : t.kind? spot.address = some .directory) (hmore : ∀ piece ∈ more, Path.isFiller piece) :
    t.Leads .reading budget here (pieces ++ more) (.found spot.address) := by
  induction h with
  | arrived h => exact .arrived ((lengthened_leg h hend).trans (leg_fillers (by decide) hmore))
  | linked h hne _ ih =>
    refine .linked (lengthened_leg h) hne ?_
    rw [← List.append_assoc]
    exact ih hend

theorem Leads.inspecting (h : t.Leads .reading budget here pieces spot) :
    t.Leads .inspecting budget here pieces spot ∨
      ∃ there target, t.Leads .inspecting budget here pieces (.found there) ∧
        t.kind? there = some (.link target) := by
  induction h with
  | @arrived _ here pieces _ h =>
    rcases t.leg_inspecting here pieces with hsame | ⟨there, target, hat, hlink⟩
    · exact .inl (.arrived (hsame.trans h))
    · exact .inr ⟨there, target, .arrived hat, hlink⟩
  | @linked budget here _ pieces _ _ _ h hne _ ih =>
    rcases t.leg_inspecting here pieces with hsame | ⟨there, target, hat, hlink⟩
    · rcases ih with hleads | ⟨there, target, hleads, hlink⟩
      · exact .inl (.linked (hsame.trans h) hne hleads)
      · exact .inr ⟨there, target, .linked (hsame.trans h) hne hleads, hlink⟩
    · exact .inr ⟨there, target, .arrived hat, hlink⟩

theorem resolve_eq_ok_iff :
    t.resolve p path = .ok spot ↔
      refusal? path = none ∧ t.Leads p linkBudget [] (Path.pieces path) spot := by
  rw [resolve]
  cases refusal? path with
  | none => simp only [true_and, follow_eq_ok_iff]
  | some fault => simp only [reduceCtorEq, false_and]

theorem isIn_of_resolve (h : t.resolve p path = .ok spot) : spot.IsIn t p :=
  (resolve_eq_ok_iff.1 h).2.isIn t.kind?_nil

/-- A path that names nothing leads to where it begins. -/
theorem resolve_fillers (hp : p ≠ .writing) (hrefusal : refusal? path = none)
    (h : ∀ piece ∈ Path.pieces path, Path.isFiller piece) :
    t.resolve p path = .ok (.found []) :=
  resolve_eq_ok_iff.2 ⟨hrefusal, .arrived (leg_fillers hp h)⟩

theorem resolve_of_keeps (h : t.resolve p path = .ok spot) (keeps : Keeps t t')
    (hq : q = p ∨ q = .reading) (hend : t'.IsEnd q spot.address) :
    t'.resolve q path = .ok (.found spot.address) := by
  obtain ⟨hrefusal, hleads⟩ := resolve_eq_ok_iff.1 h
  exact resolve_eq_ok_iff.2 ⟨hrefusal, hleads.of_keeps keeps hq hend⟩

/-- Where a reader comes, one who looks at links comes too, or to a link. -/
theorem resolve_inspecting (h : t.resolve .reading path = .ok spot) :
    t.resolve .inspecting path = .ok spot ∨
      ∃ there target, t.resolve .inspecting path = .ok (.found there) ∧
        t.kind? there = some (.link target) := by
  obtain ⟨hrefusal, hleads⟩ := resolve_eq_ok_iff.1 h
  rcases hleads.inspecting with hleads | ⟨there, target, hleads, hlink⟩
  · exact .inl (resolve_eq_ok_iff.2 ⟨hrefusal, hleads⟩)
  · exact .inr ⟨there, target, resolve_eq_ok_iff.2 ⟨hrefusal, hleads⟩, hlink⟩

/-- What was found once is found again. -/
theorem resolve_found_of_keeps (h : t.resolve p path = .ok (.found address))
    (keeps : Keeps t t') : t'.resolve p path = .ok (.found address) :=
  resolve_of_keeps h keeps (.inl rfl) (IsEnd.of_keeps (isIn_of_resolve h) keeps)

theorem locate_eq_ok_iff {node : Node} :
    t.locate p path = .ok (address, node) ↔
      t.resolve p path = .ok (.found address) ∧ t.get? address = some node := by
  rw [locate]
  cases t.resolve p path with
  | error fault => simp only [reduceCtorEq, false_and]
  | ok spot =>
    cases spot with
    | vacant => simp only [Except.ok.injEq, reduceCtorEq, false_and]
    | found there =>
      simp only [Except.ok.injEq, Spot.found.injEq]
      constructor
      · intro h
        split at h
        · next hget =>
          cases h
          exact ⟨rfl, hget⟩
        · cases h
      · rintro ⟨rfl, hget⟩
        rw [hget]

theorem isDirectory_iff :
    t.isDirectory path = true ↔
      ∃ address, t.resolve .reading path = .ok (.found address) ∧
        t.kind? address = some .directory := by
  rw [isDirectory]
  constructor
  · intro h
    split at h
    · next address entries hlocate =>
      obtain ⟨hresolve, hget⟩ := locate_eq_ok_iff.1 hlocate
      exact ⟨address, hresolve, kind?_eq_directory_iff.2 ⟨entries, hget⟩⟩
    · cases h
  · rintro ⟨address, hresolve, hkind⟩
    obtain ⟨entries, hget⟩ := kind?_eq_directory_iff.1 hkind
    rw [locate_eq_ok_iff.2 ⟨hresolve, hget⟩]

/-! ## Texts -/

theorem fromUTF8?_toUTF8 (text : String) : String.fromUTF8? text.toUTF8 = some text :=
  dif_pos text.isValidUTF8

theorem readText_eq_ok {text : String} (h : t.readBytes path = .ok text.toUTF8) :
    t.readText path = .ok text := by
  rw [readText, h]
  simp only [fromUTF8?_toUTF8]

end RoutePolicy.FileTree
