import RoutePolicy.Generate
import RoutePolicy.Proofs.Policy.Quiet
import RoutePolicy.Proofs.Policy.Store
import RoutePolicy.Proofs.Source.LongRoot

/-!
# Runs on a tree

A run stores the policy of the tree that it scans, in the same tree, and may be made again.
-/

namespace RoutePolicy

open FileTree (Address Keeps)
open Policy (IsStored MadeAround)
open Source (DiffersAt HoldsNothing Opens)

variable {settings : Settings} {t : FileTree} {report : Report} {failure : Failure}

/-! ## What a run does to the tree

A run changes nothing until all is scanned and parsed. After that it stores the policy, or leaves
behind at most the directories that it made for it. -/

theorem generate_of_failure (h : (examine settings t).value = .error failure) :
    (generate settings t).result.value = .error failure ∧ (generate settings t).tree = t := by
  simp only [generate, h, and_self]

theorem generate_of_report (h : (examine settings t).value = .ok report) :
    (generate settings t).tree = (Policy.store t settings.output report.rules).tree ∧
      (generate settings t).result.value =
        (Policy.store t settings.output report.rules).result.value.map fun _ => report := by
  simp only [generate, h]
  exact ⟨trivial, rfl⟩

/-- A run is all or nothing. -/
theorem generate_all_or_nothing (settings : Settings) (t : FileTree) :
    let run := generate settings t
    match run.result.value with
    | .error failure =>
      (examine settings t).value = .error failure ∧ run.tree = t ∨
        (∃ report, (examine settings t).value = .ok report) ∧
          ∀ address, run.tree.kind? address = t.kind? address ∨
            MadeAround settings.output t run.tree address
    | .ok report =>
      (examine settings t).value = .ok report ∧
        ∃ place, IsStored settings.output report.rules t run.tree place := by
  intro run
  cases hexamined : (examine settings t).value with
  | error failure =>
    obtain ⟨hvalue, htree⟩ := generate_of_failure hexamined
    simp only [run, hvalue]
    exact .inl ⟨trivial, htree⟩
  | ok report =>
    obtain ⟨htree, hvalue⟩ := generate_of_report hexamined
    cases hstored : (Policy.store t settings.output report.rules).result.value with
    | error failure =>
      rw [hstored] at hvalue
      simp only [run, hvalue, htree, Policy.store_tree_of_error hstored]
      exact .inr ⟨⟨report, rfl⟩, Policy.makeRoom_kind? t settings.output⟩
    | ok =>
      rw [hstored] at hvalue
      simp only [run, hvalue, htree]
      exact ⟨rfl, Policy.isStored_of_store hstored⟩

/-- The way to the policy goes through a link, and a directory is missing on it. Where the path does
not name a file the directory is made all the same. -/
example :
    let t := (({} : FileTree).put ["d"] (.directory [])).put ["l"] (.link "d")
    let stored := generate { output := "l/n/p.json" } t
    let failed := generate { output := "l/n/p.json/" } t
    stored.tree.resolve .reading "l/n/p.json" = .ok (.found ["d", "n", "p.json"]) ∧
      failed.result.value = .error (.file "l/n/p.json/" .isADirectory) ∧
      failed.tree.resolve .reading "l/n" = .ok (.found ["d", "n"]) := by
  decide +kernel

/-! ## Generating again

The policy file may lie in the tree that is scanned and have an extension that is scanned, and so
may the directories that were made for it. A second run finds no route in the policy and so gives
what the first one gave. Only a path that is too long to be opened can stop it. -/

/-- Where a path leads in the later tree, no file was in the earlier one, or a policy. -/
def NewOrPolicy (path : String) (t t' : FileTree) : Prop :=
  ∀ place, t'.resolve .reading path = .ok (.found place) →
    ∀ bytes, t.kind? place = some (.file bytes) →
      ∃ rules, bytes = (Policy.toJson rules).toUTF8

/-- What a run does with a tree in which an earlier run stored its policy, and where `met` is
opened. -/
structure Repeats (settings : Settings) (stored : FileTree) (report : Report)
    (met : List (Address × FileTree.Node)) : Prop where
  opened : Source.entriesOf stored settings.extensions settings.sourceDir = .ok met
  tree : (generate settings stored).tree = stored
  same : (∀ entry ∈ met, Opens settings.sourceDir entry.1) →
    (generate settings stored).result.value = .ok report
  tooLong : (¬ ∀ entry ∈ met, Opens settings.sourceDir entry.1) →
    ∃ entry ∈ met, ¬ Opens settings.sourceDir entry.1 ∧
      (generate settings stored).result.value =
        .error (.file (Path.below settings.sourceDir entry.1) .nameTooLong)

theorem holdsNothing_toJson (rules : List Rule) : HoldsNothing (Policy.toJson rules).toUTF8 :=
  ⟨_, rfl, fun packageHint file => Policy.scan_toJson packageHint file rules⟩

namespace Policy

variable {path : String} {rules : List Rule}

theorem exists_differsAt_of_store (h : (store t path rules).result.value = .ok ())
    (hbefore : NewOrPolicy path t (store t path rules).tree) :
    ∃ place, DiffersAt place t (store t path rules).tree := by
  obtain ⟨-, place, writes⟩ := exists_writes_of_store h
  have made := onlyMakes_makeRoom t path
  -- what is new beside the policy are directories, and a scan finds no routes in those
  refine ⟨place, {
    keeps := made.keeps.trans writes.keeps
    same := ?_
    before := ?_
    after := ?_ }⟩
  · intro address bytes hne
    rw [writes.kind, if_neg hne]
    rcases made address with hsame | hmade
    · rw [hsame]
    · rw [hmade.made, hmade.vacant]
      simp
  · intro bytes hkind
    obtain ⟨old, rfl⟩ := hbefore place writes.read bytes hkind
    exact holdsNothing_toJson old
  · intro bytes hkind
    rw [writes.kind, if_pos rfl] at hkind
    cases hkind
    exact holdsNothing_toJson rules

end Policy

theorem value_examine (settings : Settings) (t : FileTree) :
    (examine settings t).value =
      match (Source.scanTree t settings.extensions settings.sourceDir).value with
      | .error failure => .error failure
      | .ok routes => (Report.ofRoutes settings.strict settings.defaultHost routes).value := by
  rw [examine]
  cases (Source.scanTree t settings.extensions settings.sourceDir).value <;> rfl

theorem exists_scan_of_examine (h : (examine settings t).value = .ok report) :
    ∃ routes, (Source.scanTree t settings.extensions settings.sourceDir).value = .ok routes ∧
      (Report.ofRoutes settings.strict settings.defaultHost routes).value = .ok report := by
  rw [value_examine] at h
  cases hscan : (Source.scanTree t settings.extensions settings.sourceDir).value with
  | error =>
    rw [hscan] at h
    cases h
  | ok routes =>
    rw [hscan] at h
    exact ⟨routes, rfl, h⟩

/-- A run that succeeded has examined the tree and stored the policy. -/
theorem exists_store_of_generate (h : (generate settings t).result.value = .ok report) :
    (examine settings t).value = .ok report ∧
      (Policy.store t settings.output report.rules).result.value = .ok () ∧
      (generate settings t).tree = (Policy.store t settings.output report.rules).tree := by
  cases hexamined : (examine settings t).value with
  | error failure =>
    rw [(generate_of_failure hexamined).1] at h
    cases h
  | ok found =>
    obtain ⟨htree, hvalue⟩ := generate_of_report hexamined
    rw [hvalue] at h
    obtain ⟨_, hstored, rfl⟩ := Source.map_eq_ok_iff.1 h
    exact ⟨rfl, hstored, htree⟩

/-- A policy that is stored already is only looked at. -/
theorem generate_of_examine_stored {stored : FileTree}
    (hstored : (Policy.store t settings.output report.rules).result.value = .ok ())
    (hstoredTree : stored = (Policy.store t settings.output report.rules).tree)
    (h : (examine settings stored).value = .ok report) :
    (generate settings stored).tree = stored ∧
      (generate settings stored).result.value = .ok report := by
  obtain ⟨htree, hvalue⟩ := generate_of_report h
  have hagain := Policy.store_again hstored
  rw [← hstoredTree] at hagain
  rw [htree, hvalue, hagain]
  exact ⟨rfl, rfl⟩

theorem exists_repeats (h : (generate settings t).result.value = .ok report)
    (hbefore : NewOrPolicy settings.output t (generate settings t).tree) :
    ∃ met, Repeats settings (generate settings t).tree report met := by
  obtain ⟨hexamined, hstored, htree⟩ := exists_store_of_generate h
  obtain ⟨routes, hscan, hreport⟩ := exists_scan_of_examine hexamined
  rw [htree] at hbefore
  obtain ⟨place, differs⟩ := Policy.exists_differsAt_of_store hstored hbefore
  rw [← htree] at differs
  obtain ⟨met, hmet, hopens, hlong⟩ := differs.scanTree hscan
  generalize (generate settings t).tree = stored at *
  by_cases hall : ∀ entry ∈ met, Opens settings.sourceDir entry.1
  · -- the routes are the same, so the report is, and the policy that it asks for is there
    have hexamined' : (examine settings stored).value = .ok report := by
      rw [value_examine, hopens hall]
      exact hreport
    obtain ⟨htree', hvalue⟩ := generate_of_examine_stored hstored htree hexamined'
    exact ⟨met, hmet, htree', fun _ => hvalue, fun hnot => absurd hall hnot⟩
  · obtain ⟨entry, hentry, hnot, hfailed⟩ := hlong hall
    have hexamined' : (examine settings stored).value =
        .error (.file (Path.below settings.sourceDir entry.1) .nameTooLong) := by
      rw [value_examine, hfailed]
    obtain ⟨hvalue, htree'⟩ := generate_of_failure hexamined'
    exact ⟨met, hmet, htree', fun hall' => absurd hall' hall,
      fun _ => ⟨entry, hentry, hnot, hvalue⟩⟩

/-- No route is found in a policy, and a run that stored one where no other text was can be run
again: the tree stays as it is, and the result is the same, as long as the paths of all that is
opened then are not too long. -/
theorem generate_again :
    (∀ packageHint file rules, Source.scan packageHint file (Policy.toJson rules) = []) ∧
    ∀ settings t report, (generate settings t).result.value = .ok report →
      NewOrPolicy settings.output t (generate settings t).tree →
      ∃ met, Repeats settings (generate settings t).tree report met :=
  ⟨Policy.scan_toJson, fun _ _ _ => exists_repeats⟩

/-- A policy that is stored among the sources, under their extension and in a new directory. -/
theorem generate_again_among_sources :
    let t := ({} : FileTree).put ["a.go"] (.file "// @Router /a [get]\n".toUTF8)
    let settings : Settings := { output := "new/out.go" }
    let report : Report :=
      ⟨1, 1, [], [{ id := 1, host := "*", path := "/a", method := "\x7bGET\x7d"
                    authorizedRoles := ["*"]
                    working := { methods := ["GET"], roleKey := "+*-", fragments := ["a"] } }]⟩
    let stored := (generate settings t).tree
    (generate settings t).result.value = .ok report ∧
      NewOrPolicy settings.output t stored ∧
      (generate settings stored).tree = stored ∧
      (generate settings stored).result.value = .ok report := by
  intro t settings report stored
  have hreport : (generate settings t).result.value = .ok report := by decide +kernel
  have hplace : stored.resolve .reading settings.output = .ok (.found ["new", "out.go"]) := by
    decide +kernel
  have hnew : NewOrPolicy settings.output t stored := by
    intro place hresolve bytes hkind
    have hnone : (t.kind? ["new", "out.go"]).isNone := by decide +kernel
    cases hplace.symm.trans hresolve
    rw [hkind] at hnone
    cases hnone
  have hopens : (Source.entriesOf stored settings.extensions settings.sourceDir).toOption.map
      (·.all fun entry => decide (Opens settings.sourceDir entry.1)) = some true := by
    decide +kernel
  obtain ⟨met, repeats⟩ := generate_again.2 settings t report hreport hnew
  rw [repeats.opened] at hopens
  have hall := List.all_eq_true.1 (Option.some.inj hopens)
  exact ⟨hreport, hnew, repeats.tree,
    repeats.same fun entry hentry => of_decide_eq_true (hall entry hentry)⟩

/-! ### Runs that cannot be repeated -/

/-- How the root is told matters only where a path gets too long by it. -/
theorem examine_of_entriesOf_eq {root : String} (settings : Settings)
    (h : (examine settings t).value = .ok report)
    (hentries : Source.entriesOf t settings.extensions root =
      Source.entriesOf t settings.extensions settings.sourceDir)
    (hopens : ∀ met, Source.entriesOf t settings.extensions root = .ok met →
      ∀ entry ∈ met, Opens root entry.1) :
    (examine { settings with sourceDir := root } t).value = .ok report := by
  obtain ⟨routes, hscan, hreport⟩ := exists_scan_of_examine h
  rw [Source.value_scanTree, ← hentries] at hscan
  rw [value_examine, Source.value_scanTree]
  cases hmet : Source.entriesOf t settings.extensions root with
  | error =>
    rw [hmet] at hscan
    cases hscan
  | ok met =>
    rw [hmet] at hscan
    obtain ⟨-, htexts, hroutes⟩ := Source.value_scanEntries_eq_ok_iff.1 hscan
    simp only [Source.value_scanEntries_eq_ok_iff.2 ⟨hopens met hmet, htexts, hroutes⟩]
    exact hreport

theorem entriesOf_point (t : FileTree) (extensions : List String) :
    Source.entriesOf t extensions "." = .ok (Source.opened extensions t.entries) := by
  have hresolve : t.resolve .inspecting "." = .ok (.found []) :=
    FileTree.resolve_fillers (by decide) (by decide) (by decide)
  rw [Source.entriesOf, FileTree.locate_eq_ok_iff.2 ⟨hresolve, rfl⟩]

/-- A run whose sources can be opened and whose policy, which lies beside them, can not. -/
theorem generate_beside {root name output : String} {size : Nat} (h : IsLongRoot root size)
    (hnear : (examine { output } t).value = .ok report)
    (hopened : (Source.opened ["go"] t.entries).map Prod.fst = [[name]])
    (hname : size + name.utf8ByteSize ≤ FileTree.pathLimit)
    (hstored : (Policy.store t output report.rules).result.value = .ok ())
    (hnew : NewOrPolicy output t (Policy.store t output report.rules).tree)
    (houtput : [output] ∈ (Source.opened ["go"]
      (Policy.store t output report.rules).tree.entries).map Prod.fst)
    (hlong : FileTree.pathLimit < size + output.utf8ByteSize) :
    let settings : Settings := { ({ output } : Settings) with sourceDir := root }
    (generate settings t).result.value = .ok report ∧
      ∃ path, (generate settings (generate settings t).tree).result.value =
        .error (.file path .nameTooLong) := by
  intro settings
  have hopens : ∀ met, Source.entriesOf t ["go"] root = .ok met →
      ∀ entry ∈ met, Opens root entry.1 := by
    intro met hmet entry hentry
    cases (h.entriesOf t ["go"]).symm.trans hmet
    have hmem := List.mem_map_of_mem (f := Prod.fst) hentry
    rw [hopened, List.mem_singleton] at hmem
    rw [hmem]
    exact h.opens_iff.2 hname
  have hexamined : (examine settings t).value = .ok report :=
    examine_of_entriesOf_eq { output } hnear
      ((h.entriesOf t ["go"]).trans (entriesOf_point t ["go"]).symm) hopens
  obtain ⟨htree, hvalue⟩ := generate_of_report hexamined
  have hreport : (generate settings t).result.value = .ok report := by
    rw [hvalue, hstored]
    rfl
  refine ⟨hreport, ?_⟩
  rw [← htree] at hnew houtput
  obtain ⟨met, repeats⟩ := exists_repeats hreport hnew
  have hnot : ¬ ∀ entry ∈ met, Opens root entry.1 := by
    intro hall
    cases (h.entriesOf _ ["go"]).symm.trans repeats.opened
    obtain ⟨entry, hentry, hat⟩ := List.mem_map.1 houtput
    have hopens := hall entry hentry
    rw [hat] at hopens
    exact absurd (h.opens_iff.1 hopens) (Nat.not_le_of_lt hlong)
  obtain ⟨entry, -, -, hfailed⟩ := repeats.tooLong hnot
  exact ⟨_, hfailed⟩

/-- Two runs whose output path leads nowhere before, and which give something else the second time.
In the first one the path goes through the parent of a directory that is yet to be made, and then it
leads to a source file, which is overwritten. In the second one the path of the sources is so long
that the source file can be opened and the policy beside it can not. -/
theorem not_generate_again :
    let t := ({} : FileTree).put ["a.go"] (.file "// @Router /a [get]\n".toUTF8)
    let through : Settings := { output := "sub/../a.go" }
    let long : Settings := { sourceDir := dots 2045, output := "out.go" }
    (t.readText through.output = .error .notFound ∧
      ∃ report later, (generate through t).result.value = .ok report ∧ report.scanned = 1 ∧
        (generate through (generate through t).tree).result.value = .ok later ∧
          later.scanned = 0) ∧
    t.readText long.output = .error .notFound ∧
      ∃ report path, (generate long t).result.value = .ok report ∧
        (generate long (generate long t).tree).result.value =
          .error (.file path .nameTooLong) := by
  have hroot : IsLongRoot (dots 2045) 4090 := isLongRoot_dots (by decide) rfl (by decide)
  generalize dots 2045 = root at hroot
  intro t through long
  constructor
  · have hmissing : t.readText through.output = .error .notFound := by decide +kernel
    have hfirst : (generate through t).result.value.map (·.scanned) = .ok 1 := by decide +kernel
    have hsecond : (generate through (generate through t).tree).result.value.map (·.scanned) =
        .ok 0 := by decide +kernel
    obtain ⟨report, hreport, hscanned⟩ := Source.map_eq_ok_iff.1 hfirst
    obtain ⟨later, hlater, hscanned'⟩ := Source.map_eq_ok_iff.1 hsecond
    exact ⟨hmissing, report, later, hreport, hscanned, hlater, hscanned'⟩
  · let report : Report :=
      ⟨1, 1, [], [{ id := 1, host := "*", path := "/a", method := "\x7bGET\x7d"
                    authorizedRoles := ["*"]
                    working := { methods := ["GET"], roleKey := "+*-", fragments := ["a"] } }]⟩
    have hmissing : t.readText "out.go" = .error .notFound := by decide +kernel
    have hnear : (examine { output := "out.go" } t).value = .ok report := by decide +kernel
    have hopened : (Source.opened ["go"] t.entries).map Prod.fst = [["a.go"]] := by
      decide +kernel
    have hstored : (Policy.store t "out.go" report.rules).result.value = .ok () := by
      decide +kernel
    have hplace : (Policy.store t "out.go" report.rules).tree.resolve .reading "out.go" =
        .ok (.found ["out.go"]) := by decide +kernel
    have hfree : (t.kind? ["out.go"]).isNone := by decide +kernel
    have houtput : ["out.go"] ∈ (Source.opened ["go"]
        (Policy.store t "out.go" report.rules).tree.entries).map Prod.fst := by decide +kernel
    have hnew : NewOrPolicy "out.go" t (Policy.store t "out.go" report.rules).tree := by
      intro place hresolve bytes hkind
      cases hplace.symm.trans hresolve
      rw [hkind] at hfree
      cases hfree
    obtain ⟨hreport, path, hfailed⟩ :=
      generate_beside hroot hnear hopened (by decide) hstored hnew houtput (by decide)
    exact ⟨hmissing, report, path, hreport, hfailed⟩

end RoutePolicy
