import RoutePolicy.Proofs.Route.Wildcards

/-!
# The shape of a path

A path whose braces come in pairs is cut into parameters and the literal texts around them. Its shape
is what is left when the names of the parameters are forgotten: how many there are, and the literal
texts. Routes get the same path exactly if their paths have the same shape. That two shapes are never
confused rests on the star that stands for a parameter: no star is read as part of a path, so every
star of a collapsed path marks a parameter.
-/

namespace RoutePolicy

namespace Parameters

variable {s s' : List Char}

def isBrace (c : Char) : Bool := c == '{' || c == '}'

/-- Read from left to right the braces are an opening one and a closing one in turn, and the last one
closes. -/
def Alternates (s : List Char) : Prop :=
  ∃ n, s.filter isBrace = (List.replicate n ['{', '}']).flatten

/-- A path cut at its parameters. -/
structure Cut (s : List Char) where
  /-- The literal text before the first parameter. -/
  start : List Char
  /-- The name of each parameter, and the literal text behind it. -/
  parameters : List (List Char × List Char)
  text : start ++ parameters.flatMap (fun p => '{' :: (p.1 ++ '}' :: p.2)) = s
  start_free : BraceFree start
  parameters_free : ∀ p ∈ parameters, BraceFree p.1 ∧ BraceFree p.2

theorem braceFree_iff : BraceFree s ↔ ∀ c ∈ s, ¬ isBrace c = true := by
  simp only [BraceFree, isBrace, Bool.or_eq_true, beq_iff_eq, not_or]

-- a test of the characters of the text; without it all characters there are would be searched
instance (s : List Char) : Decidable (BraceFree s) :=
  decidable_of_iff (s.all fun c => !isBrace c) (by simp [braceFree_iff])

/-- Braces that come in pairs are those of parameters. -/
theorem nonempty_cut (h : Alternates s) : Nonempty (Cut s) := by
  obtain ⟨n, hbraces⟩ := h
  induction n generalizing s with
  | zero =>
    have hfree : BraceFree s := braceFree_iff.2 (List.filter_eq_nil_iff.1 hbraces)
    exact ⟨{
      start := s
      parameters := []
      text := List.append_nil s
      start_free := hfree
      parameters_free := fun _ hp => absurd hp List.not_mem_nil }⟩
  | succ n ih =>
    -- the first two braces are those of the first parameter, and the rest is cut by itself
    rw [List.replicate_succ, List.flatten_cons] at hbraces
    obtain ⟨start, behind, rfl, hstart, -, hbehind⟩ := List.filter_eq_cons_iff.1 hbraces
    obtain ⟨name, rest, rfl, hname, -, hrest⟩ := List.filter_eq_cons_iff.1 hbehind
    obtain ⟨cut⟩ := ih hrest
    exact ⟨{
      start := start
      parameters := (name, cut.start) :: cut.parameters
      text := by
        rw [List.flatMap_cons, List.cons_append, List.append_assoc, List.cons_append, cut.text]
      start_free := braceFree_iff.2 hstart
      parameters_free := List.forall_mem_cons.2
        ⟨⟨braceFree_iff.2 hname, cut.start_free⟩, cut.parameters_free⟩ }⟩

namespace Cut

/-- The literal texts: the one before the first parameter, and the one behind each. -/
def literals (cut : Cut s) : List (List Char) := cut.start :: cut.parameters.map Prod.snd

/-- As many parameters, with the same literal texts around them. -/
def SameShape (cut : Cut s) (cut' : Cut s') : Prop :=
  cut.parameters.length = cut'.parameters.length ∧ cut.literals = cut'.literals

/-- The pieces between the opening braces are those of the parameters. -/
theorem splitOn_eq (cut : Cut s) :
    s.splitOn '{' = cut.start :: cut.parameters.map fun p => p.1 ++ '}' :: p.2 := by
  have htext :
      ['{'].intercalate (cut.start :: cut.parameters.map fun p => p.1 ++ '}' :: p.2) = s := by
    rw [Text.intercalate_cons, List.flatMap_map]
    exact cut.text
  have hfree : ∀ piece ∈ cut.start :: cut.parameters.map (fun p => p.1 ++ '}' :: p.2),
      '{' ∉ piece := by
    rw [List.forall_mem_cons, List.forall_mem_map]
    refine ⟨fun hmem => (cut.start_free _ hmem).1 rfl, fun p hp hmem => ?_⟩
    obtain ⟨hname, hliteral⟩ := cut.parameters_free p hp
    rcases List.mem_append.1 hmem with hmem | hmem
    · exact (hname _ hmem).1 rfl
    · rcases List.mem_cons.1 hmem with hmem | hmem
      · exact absurd hmem (by decide)
      · exact (hliteral _ hmem).1 rfl
  rw [← List.splitOn_intercalate '{' hfree (List.cons_ne_nil _ _), htext]

/-- The collapsed path is the literal texts with a star between each two of them. -/
theorem collapse_eq (cut : Cut s) : collapse s = ['*'].intercalate cut.literals := by
  rw [collapse_eq_of_splitOn cut.splitOn_eq, literals, Text.intercalate_cons, List.flatMap_map,
    List.flatMap_map]
  refine congrArg _ (List.flatMap_congr fun p hp => ?_)
  have hlast : '}' ∉ p.2 := fun hmem => ((cut.parameters_free p hp).2 _ hmem).2 rfl
  exact collapsedPiece_of_last p.1 hlast

theorem mem_of_mem_literals (cut : Cut s) {literal : List Char} {c : Char}
    (h : literal ∈ cut.literals) (hc : c ∈ literal) : c ∈ s := by
  refine cut.text ▸ ?_
  rcases List.mem_cons.1 h with rfl | h
  · exact List.mem_append_left _ hc
  · obtain ⟨p, hp, rfl⟩ := List.mem_map.1 h
    refine List.mem_append_right _ (List.mem_flatMap.2 ⟨p, hp, ?_⟩)
    exact List.mem_cons_of_mem _ (List.mem_append_right _ (List.mem_cons_of_mem _ hc))

/-- Where no star is written, the stars of the collapsed path part the literal texts. -/
theorem splitOn_collapse (cut : Cut s) (h : '*' ∉ s) : (collapse s).splitOn '*' = cut.literals := by
  have hfree : ∀ literal ∈ cut.literals, '*' ∉ literal := fun _ hliteral hmem =>
    h (cut.mem_of_mem_literals hliteral hmem)
  rw [cut.collapse_eq, List.splitOn_intercalate '*' hfree (List.cons_ne_nil _ _)]

theorem sameShape_iff_literals (cut : Cut s) (cut' : Cut s') :
    SameShape cut cut' ↔ cut.literals = cut'.literals := by
  refine ⟨And.right, fun h => ⟨?_, h⟩⟩
  have hlength := congrArg List.length h
  simpa only [literals, List.length_cons, List.length_map, Nat.add_right_cancel_iff] using hlength

theorem collapse_eq_iff (cut : Cut s) (cut' : Cut s') (h : '*' ∉ s) (h' : '*' ∉ s') :
    collapse s = collapse s' ↔ SameShape cut cut' := by
  rw [sameShape_iff_literals]
  constructor
  · intro heq
    rw [← cut.splitOn_collapse h, heq, cut'.splitOn_collapse h']
  · intro heq
    rw [cut.collapse_eq, heq, cut'.collapse_eq]

end Cut

end Parameters

namespace Route

open Parameters (Alternates Cut)
open RouterLine (Reading)

variable {r r' accepted accepted' : Route}

theorem star_not_mem_path {s : List Char} (reading : Reading s) : '*' ∉ reading.path := by
  intro hmem
  rcases List.mem_cons.1 hmem with hmem | hmem
  · exact absurd hmem (by decide)
  · exact absurd (reading.tail_chars _ hmem) (by decide)

theorem path_of_parse (h : r.parse = .ok accepted) {reading : Reading r.routerLine.toList}
    (hfirst : reading.IsLeftmost) :
    accepted.rule.path = String.ofList (Parameters.collapse reading.path) := by
  rw [← Except.ok.inj ((parse_of_isLeftmost hfirst).symm.trans h)]
  rfl

/-- Two accepted routes in whose paths the braces come in pairs have one path exactly if the paths
that their lines are read with have the same shape. What the parameters are called never counts, and
different literal texts always do. -/
theorem path_eq_iff_sameShape (h : r.parse = .ok accepted) (h' : r'.parse = .ok accepted')
    {reading : Reading r.routerLine.toList} {reading' : Reading r'.routerLine.toList}
    (hfirst : reading.IsLeftmost) (hfirst' : reading'.IsLeftmost)
    (hpaired : Alternates reading.path) (hpaired' : Alternates reading'.path) :
    Nonempty (Cut reading.path) ∧ Nonempty (Cut reading'.path) ∧
      ∀ (cut : Cut reading.path) (cut' : Cut reading'.path),
        accepted.rule.path = accepted'.rule.path ↔ cut.SameShape cut' := by
  refine ⟨Parameters.nonempty_cut hpaired, Parameters.nonempty_cut hpaired', fun cut cut' => ?_⟩
  rw [path_of_parse h hfirst, path_of_parse h' hfirst', String.ofList_inj]
  exact cut.collapse_eq_iff cut' (star_not_mem_path reading) (star_not_mem_path reading')

/-- Parameters of other names, one of them empty and one with a slash in its name. -/
theorem path_eq_of_renamed :
    let r : Route := { routerLine := "/a/\x7bid\x7d/b\x7bx\x7d\x7b\x7d [get]" }
    let r' : Route := { routerLine := "by /a/\x7bof/user\x7d/b\x7b\x7d\x7bid\x7d\t[put] /b" }
    ∃ accepted accepted', r.parse = .ok accepted ∧ r'.parse = .ok accepted' ∧
      accepted.rule.path = accepted'.rule.path := by
  intro r r'
  obtain ⟨reading, hfirst, hline⟩ := RouterLine.find?_eq_some_iff.1
    (show RouterLine.find? r.routerLine.toList =
      some ⟨"/a/\x7bid\x7d/b\x7bx\x7d\x7b\x7d".toList, "get".toList⟩ by decide +kernel)
  obtain ⟨reading', hfirst', hline'⟩ := RouterLine.find?_eq_some_iff.1
    (show RouterLine.find? r'.routerLine.toList =
      some ⟨"/a/\x7bof/user\x7d/b\x7b\x7d\x7bid\x7d".toList, "put".toList⟩ by decide +kernel)
  have hpath : reading.path = "/a/\x7bid\x7d/b\x7bx\x7d\x7b\x7d".toList :=
    congrArg RouterLine.path hline
  have hpath' : reading'.path = "/a/\x7bof/user\x7d/b\x7b\x7d\x7bid\x7d".toList :=
    congrArg RouterLine.path hline'
  let cut : Cut reading.path :=
    { start := "/a/".toList
      parameters := [("id".toList, "/b".toList), ("x".toList, []), ([], [])]
      text := by rw [hpath]; decide +kernel
      start_free := by decide +kernel
      parameters_free := by decide +kernel }
  let cut' : Cut reading'.path :=
    { start := "/a/".toList
      parameters := [("of/user".toList, "/b".toList), ([], []), ("id".toList, [])]
      text := by rw [hpath']; decide +kernel
      start_free := by decide +kernel
      parameters_free := by decide +kernel }
  have hpaired : Alternates reading.path := ⟨3, by rw [hpath]; decide +kernel⟩
  have hpaired' : Alternates reading'.path := ⟨3, by rw [hpath']; decide +kernel⟩
  have hparse := parse_of_isLeftmost hfirst
  have hparse' := parse_of_isLeftmost hfirst'
  refine ⟨_, _, hparse, hparse', ?_⟩
  exact ((path_eq_iff_sameShape hparse hparse' hfirst hfirst' hpaired hpaired').2.2 cut cut').2
    ⟨rfl, rfl⟩

end Route

end RoutePolicy
