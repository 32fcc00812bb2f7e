import RoutePolicy.CommandLine.Arguments

/-!
# What a command line can ask for

The options of `generate` may be given in any order and in two spellings, and some of them only
once. What can be asked for with them is told without any of this: every choice of values, as long
as no path is empty (`exists_parse?_generate_iff`). For each choice there is a command line that
gives it, with one argument for every value.
-/

namespace RoutePolicy.CommandLine

open Settings (Overrides)

variable {o o' : Overrides} {option : ValueOption} {value : String}

/-- No path is the empty text. -/
structure NamesPaths (o : Overrides) : Prop where
  sourceDir : o.sourceDir ≠ some ""
  output : o.output ≠ some ""

theorem NamesPaths.setOption? (h : NamesPaths o) (hset : setOption? o option value = some o') :
    NamesPaths o' := by
  cases option with
  | dir =>
    simp only [CommandLine.setOption?, Option.ite_none_left_eq_some, Option.some.injEq] at hset
    obtain ⟨hgiven, rfl⟩ := hset
    exact ⟨by simp_all, h.output⟩
  | out =>
    simp only [CommandLine.setOption?, Option.ite_none_left_eq_some, Option.some.injEq] at hset
    obtain ⟨hgiven, rfl⟩ := hset
    exact ⟨h.sourceDir, by simp_all⟩
  | host =>
    simp only [CommandLine.setOption?, Option.ite_none_left_eq_some, Option.some.injEq] at hset
    obtain ⟨-, rfl⟩ := hset
    exact ⟨h.sourceDir, h.output⟩
  | ext =>
    obtain rfl := Option.some.inj hset
    exact ⟨h.sourceDir, h.output⟩

theorem NamesPaths.readOverrides? {o : Overrides} {arguments : List String} (h : NamesPaths o)
    (hread : readOverrides? o arguments = some o') : NamesPaths o' := by
  match arguments with
  | [] => exact Option.some.inj hread ▸ h
  | argument :: rest =>
    rw [CommandLine.readOverrides?.eq_def] at hread
    dsimp only at hread
    split at hread
    · obtain ⟨-, hread⟩ := Option.ite_none_right_eq_some.1 hread
      exact Option.some.inj hread ▸ h
    split at hread
    · obtain ⟨-, hread⟩ := Option.ite_none_left_eq_some.1 hread
      have hstrict : NamesPaths { o with strict := true } := ⟨h.sourceDir, h.output⟩
      exact hstrict.readOverrides? hread
    split at hread
    · obtain ⟨next, hset, hrest⟩ := Option.bind_eq_some_iff.1 hread
      exact (h.setOption? hset).readOverrides? hrest
    · obtain ⟨-, hread⟩ := Option.ite_none_left_eq_some.1 hread
      obtain ⟨next, hset, hrest⟩ := Option.bind_eq_some_iff.1 hread
      exact (h.setOption? hset).readOverrides? hrest
    · cases hread
    · cases hread

/-! ## One command line for every choice -/

def assignment (option : ValueOption) (value : String) : String :=
  "--" ++ option.name ++ "=" ++ value

theorem toList_assignment (option : ValueOption) (value : String) :
    (assignment option value).toList = ("--" ++ option.name ++ "=").toList ++ value.toList :=
  String.toList_append

/-- No option's assignment begins like another one's, so the argument tells the option. -/
theorem valueOption?_assignment (option : ValueOption) (value : String) :
    valueOption? (assignment option value) = some (option, some value) := by
  have hne : ∀ other : ValueOption, assignment option value ≠ "--" ++ other.name := by
    intro other heq
    have hequals : '=' ∈ ("--" ++ other.name).toList := by
      rw [← heq, toList_assignment]
      exact List.mem_append_left _ (by cases option <;> decide)
    cases other <;> exact absurd hequals (by decide)
  have hstart : ∀ other : ValueOption,
      ("--" ++ other.name ++ "=").toList.isPrefixOf (assignment option value).toList =
        decide (other = option) := by
    intro other
    rw [toList_assignment]
    cases other <;> cases option <;> rfl
  have hdrop : String.ofList ((assignment option value).toList.drop
      ("--" ++ option.name ++ "=").toList.length) = value := by
    rw [toList_assignment, List.drop_left, String.ofList_toList]
  simp only [valueOption?, if_neg (hne _), hstart, decide_eq_true_eq]
  cases option <;> simp only [List.findSome?, reduceCtorEq, if_false, if_true, hdrop]

theorem readOverrides?_assignment (o : Overrides) (option : ValueOption) (value : String)
    (rest : List String) :
    readOverrides? o (assignment option value :: rest) =
      (setOption? o option value).bind fun o => readOverrides? o rest := by
  have hequals : '=' ∈ (assignment option value).toList := by
    rw [toList_assignment]
    exact List.mem_append_left _ (by cases option <;> decide)
  have hend : assignment option value ≠ "--" := by
    intro heq
    rw [heq] at hequals
    exact absurd hequals (by decide)
  have hstrict : assignment option value ≠ "--strict" := by
    intro heq
    rw [heq] at hequals
    exact absurd hequals (by decide)
  rw [readOverrides?.eq_def o (assignment option value :: rest)]
  simp only [if_neg hend, if_neg hstrict, valueOption?_assignment]

/-- The value of an option that may be missing. -/
theorem readOverrides?_given {given : Option String} {rest : List String}
    (hnone : given = none → o = o')
    (hsome : ∀ value, given = some value → setOption? o option value = some o') :
    readOverrides? o (given.toList.map (assignment option) ++ rest) = readOverrides? o' rest := by
  cases given with
  | none => rw [hnone rfl]; rfl
  | some value =>
    rw [Option.toList_some, List.map_singleton, List.singleton_append, readOverrides?_assignment,
      hsome value rfl, Option.bind_some]

/-- The extensions of the assignments are taken over in their order. -/
theorem readOverrides?_extensions (o : Overrides) (values rest : List String) :
    readOverrides? o (values.map (assignment .ext) ++ rest) =
      readOverrides? { o with extensions := o.extensions ++ values } rest := by
  induction values generalizing o with
  | nil => rw [List.append_nil]; rfl
  | cons value values ih =>
    rw [List.map_cons, List.cons_append, readOverrides?_assignment, setOption?, Option.bind_some,
      ih, List.append_assoc]
    rfl

/-- The arguments that give some options, with one argument for every value. -/
def argumentsOf (o : Overrides) : List String :=
  o.sourceDir.toList.map (assignment .dir) ++ (o.output.toList.map (assignment .out) ++
    (o.defaultHost.toList.map (assignment .host) ++ (o.extensions.map (assignment .ext) ++
      if o.strict then ["--strict"] else [])))

theorem readOverrides?_argumentsOf (h : NamesPaths o) :
    readOverrides? {} (argumentsOf o) = some o := by
  have hdir : ∀ rest, readOverrides? {} (o.sourceDir.toList.map (assignment .dir) ++ rest) =
      readOverrides? { sourceDir := o.sourceDir } rest := by
    intro rest
    refine readOverrides?_given (fun hnone => by rw [hnone]) fun value hvalue => ?_
    have hne : value ≠ "" := fun heq => h.sourceDir (by rw [hvalue, heq])
    rw [setOption?, if_neg (by simpa using hne), hvalue]
  have hout : ∀ rest, readOverrides? { sourceDir := o.sourceDir }
        (o.output.toList.map (assignment .out) ++ rest) =
      readOverrides? { sourceDir := o.sourceDir, output := o.output } rest := by
    intro rest
    refine readOverrides?_given (fun hnone => by rw [hnone]) fun value hvalue => ?_
    have hne : value ≠ "" := fun heq => h.output (by rw [hvalue, heq])
    rw [setOption?, if_neg (by simpa using hne), hvalue]
  have hhost : ∀ rest, readOverrides? { sourceDir := o.sourceDir, output := o.output }
        (o.defaultHost.toList.map (assignment .host) ++ rest) =
      readOverrides? { sourceDir := o.sourceDir, output := o.output, defaultHost := o.defaultHost }
        rest := by
    intro rest
    refine readOverrides?_given (fun hnone => by rw [hnone]) fun value hvalue => ?_
    rw [setOption?, if_neg (by simp), hvalue]
  have hstrict : ∀ o : Overrides,
      readOverrides? { o with strict := false } (if o.strict then ["--strict"] else []) =
        some o := by
    rintro ⟨sourceDir, output, defaultHost, extensions, strict⟩
    cases strict with
    | false => rfl
    | true =>
      unfold CommandLine.readOverrides?
      rfl
  rw [argumentsOf, hdir, hout, hhost, readOverrides?_extensions, List.nil_append]
  exact hstrict o

/-- Every choice of values can be asked for, as long as no path is empty, and nothing else can. -/
theorem exists_parse?_generate_iff :
    (∃ arguments, parse? arguments = some (.generate o)) ↔ NamesPaths o := by
  constructor
  · rintro ⟨arguments, hparse⟩
    unfold parse? at hparse
    split at hparse
    · next rest =>
      obtain ⟨o', hread, heq⟩ := Option.map_eq_some_iff.1 hparse
      have hnone : NamesPaths {} := ⟨nofun, nofun⟩
      exact Command.generate.inj heq ▸ hnone.readOverrides? hread
    · obtain ⟨file, -, heq⟩ := Option.map_eq_some_iff.1 hparse
      cases heq
    · split at hparse <;> cases hparse
    · cases hparse
  · intro h
    exact ⟨"generate" :: argumentsOf o, by rw [parse?, readOverrides?_argumentsOf h]; rfl⟩

end RoutePolicy.CommandLine
