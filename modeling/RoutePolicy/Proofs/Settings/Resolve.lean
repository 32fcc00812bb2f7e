import RoutePolicy.Proofs.CommandLine.Arguments
import RoutePolicy.Proofs.Settings.Extensions

/-!
# Settings, one by one

A setting is told by its own option, its own variable and its default alone, and by a rule of its
own: a text is taken from the first of the three that is there, extensions from the first that names
one, and strictness from any. The rules are relations here (`TextSetting`, `ExtensionsSetting`,
`IsOn`), and the settings of a run are shown to be the only ones that satisfy them
(`resolve_eq_ok_iff`). So what two runs agree on for one setting is all that this setting can depend
on (`Resolved.frame`).

Flags are compared in ASCII lower case. Letters beyond ASCII could only make a difference if some of
them were lowered into the letters of a flag, and none of them is (`Lowers`).
-/

namespace RoutePolicy.Settings

open Text (Blank trim)

/-! ## Variables -/

/-- A variable is set to a text that is not blank. -/
structure IsFilled (entry : Option String) (raw : String) : Prop where
  set : entry = some raw
  filled : ¬ Blank raw.toList

section Variables

variable {entry : Option String} {raw raw' : String}

theorem IsFilled.unique (h : IsFilled entry raw) (h' : IsFilled entry raw') : raw = raw' :=
  Option.some.inj (h.set.symm.trans h'.set)

theorem IsFilled.nonBlank?_eq (h : IsFilled entry raw) :
    nonBlank? entry = some (String.ofList (trim raw.toList)) := by
  rw [h.set]
  exact if_neg fun hnil => h.filled (Text.trim_eq_nil_iff.1 hnil)

theorem nonBlank?_eq_none (h : ∀ raw, ¬ IsFilled entry raw) : nonBlank? entry = none := by
  cases entry with
  | none => rfl
  | some raw =>
    apply if_pos
    rw [Text.trim_eq_nil_iff]
    by_contra hfilled
    exact h raw ⟨rfl, hfilled⟩

end Variables

/-! ## Rules -/

/-- A text is the value of the option as it stands, else the trimmed value of the variable, else the
default. -/
inductive TextSetting (option entry : Option String) (default : String) : String → Prop where
  | ofOption {value : String} (given : option = some value) :
      TextSetting option entry default value
  | ofVariable {raw : String} (missing : option = none) (filled : IsFilled entry raw) :
      TextSetting option entry default (String.ofList (trim raw.toList))
  | byDefault (missing : option = none) (unset : ∀ raw, ¬ IsFilled entry raw) :
      TextSetting option entry default default

/-- Extensions are those of all options together, else those of the variable, else the default. -/
inductive ExtensionsSetting (lists : List String) (entry : Option String) : List String → Prop where
  | ofOptions (named : lists.flatMap parseExtensions ≠ []) :
      ExtensionsSetting lists entry (lists.flatMap parseExtensions)
  | ofVariable {raw : String} (unnamed : lists.flatMap parseExtensions = [])
      (filled : IsFilled entry raw) : ExtensionsSetting lists entry (parseExtensions raw)
  | byDefault (unnamed : lists.flatMap parseExtensions = []) (unset : ∀ raw, ¬ IsFilled entry raw) :
      ExtensionsSetting lists entry ["go"]

def NamesNoExtension (entry : Option String) : Prop :=
  ∃ raw, IsFilled entry raw ∧ parseExtensions raw = []

/-- A variable is set to one of some words, but for blanks around it and its case. -/
def IsWord (lower : List Char → List Char) (words : List String) (entry : Option String) : Prop :=
  ∃ raw, IsFilled entry raw ∧ String.ofList (lower (trim raw.toList)) ∈ words

def IsOn (lower : List Char → List Char) (entry : Option String) : Prop :=
  IsWord lower ["true", "1"] entry

def NamesNoFlag (lower : List Char → List Char) (entry : Option String) : Prop :=
  (∃ raw, IsFilled entry raw) ∧ ¬ IsWord lower ["true", "1", "false", "0"] entry

/-- The settings that follow from an environment and options. -/
structure Resolved (lower : List Char → List Char) (lookup : String → Option String)
    (o : Overrides) (s : Settings) : Prop where
  sourceDir : TextSetting o.sourceDir (lookup Variable.sourceDir.name) "." s.sourceDir
  output : TextSetting o.output (lookup Variable.output.name) "grbac_permissions.json" s.output
  defaultHost : TextSetting o.defaultHost (lookup Variable.defaultHost.name) "*" s.defaultHost
  extensions : ExtensionsSetting o.extensions (lookup Variable.extensions.name) s.extensions
  strict : s.strict = true ↔ o.strict = true ∨ IsOn lower (lookup Variable.strict.name)

/-- The fault of an environment. Of two faults the one in the extensions is told. -/
inductive IsFault (lower : List Char → List Char) (lookup : String → Option String) :
    Failure → Prop where
  | extensions (unnamed : NamesNoExtension (lookup Variable.extensions.name)) :
      IsFault lower lookup
        (.configuration "GRBAC_EXTENSIONS must name at least one extension")
  | strict (named : ¬ NamesNoExtension (lookup Variable.extensions.name))
      (unknown : NamesNoFlag lower (lookup Variable.strict.name)) :
      IsFault lower lookup (.configuration "GRBAC_STRICT must be true, false, 1 or 0")

/-- Two runs are given the same option for what a variable sets. -/
def Variable.SameOption (o o' : Overrides) : Variable → Prop
  | sourceDir => o.sourceDir = o'.sourceDir
  | output => o.output = o'.output
  | defaultHost => o.defaultHost = o'.defaultHost
  | extensions => o.extensions = o'.extensions
  | strict => o.strict = o'.strict

def Variable.SameSetting (s s' : Settings) : Variable → Prop
  | sourceDir => s.sourceDir = s'.sourceDir
  | output => s.output = s'.output
  | defaultHost => s.defaultHost = s'.defaultHost
  | extensions => s.extensions = s'.extensions
  | strict => s.strict = s'.strict

/-! ## Flags in any case -/

/-- Lower case for all of Unicode. Within ASCII it is the one of ASCII, and a letter beyond ASCII
leaves a letter beyond ASCII behind, or the `k` that the Kelvin sign becomes. -/
structure Lowers (lower : List Char → List Char) : Prop where
  ascii : ∀ s, (∀ c ∈ s, c.toNat < 128) → lower s = s.map Char.toLower
  beyond : ∀ s, (∃ c ∈ s, 128 ≤ c.toNat) → ∃ c ∈ lower s, 128 ≤ c.toNat ∨ c = 'k'

section Flags

variable {lower : List Char → List Char} {entry : Option String} {raw word : String}

theorem toLower_eq_self_of_beyond {c : Char} (h : 128 ≤ c.toNat) : c.toLower = c := by
  apply Char.toLower_eq_of_not_isUpper
  simp only [Char.isUpper, decide_eq_true_eq, UInt32.le_iff_toNat_le]
  have hupper : 'Z'.val.toNat = 90 := rfl
  have hcode : c.val.toNat = c.toNat := rfl
  omega

/-- ASCII lower case is one way to lower all of Unicode. -/
theorem lowers_ascii : Lowers (List.map Char.toLower) where
  ascii _ _ := rfl
  beyond s := by
    rintro ⟨c, hc, hbeyond⟩
    exact ⟨c, List.mem_map.2 ⟨c, hc, toLower_eq_self_of_beyond hbeyond⟩, Or.inl hbeyond⟩

/-- Lower case with the two letters beyond ASCII of which something within ASCII is left. -/
def lowerText (s : List Char) : List Char :=
  s.flatMap fun c =>
    if c = '\u212A' then ['k'] else if c = '\u0130' then ['i', '\u0307'] else [c.toLower]

theorem lowers_lowerText : Lowers lowerText where
  ascii s hascii := by
    rw [List.map_eq_flatMap]
    refine List.flatMap_congr fun c hc => ?_
    have hcode := hascii c hc
    rw [if_neg, if_neg]
    · rintro rfl
      exact absurd hcode (by decide)
    · rintro rfl
      exact absurd hcode (by decide)
  beyond s := by
    rintro ⟨c, hc, hbeyond⟩
    by_cases hkelvin : c = '\u212A'
    case pos =>
      exact ⟨'k', List.mem_flatMap.2 ⟨c, hc, by rw [if_pos hkelvin]; decide⟩, Or.inr rfl⟩
    by_cases hdot : c = '\u0130'
    case pos =>
      exact ⟨'\u0307', List.mem_flatMap.2 ⟨c, hc, by rw [if_neg hkelvin, if_pos hdot]; decide⟩,
        Or.inl (by decide)⟩
    refine ⟨c, List.mem_flatMap.2 ⟨c, hc, ?_⟩, Or.inl hbeyond⟩
    rw [if_neg hkelvin, if_neg hdot, toLower_eq_self_of_beyond hbeyond]
    exact List.mem_singleton_self c

theorem Lowers.not_eq_of_beyond (h : Lowers lower) {s : List Char}
    (hword : ∀ c ∈ word.toList, c.toNat < 128 ∧ c ≠ 'k') (hbeyond : ∃ c ∈ s, 128 ≤ c.toNat) :
    String.ofList (lower s) ≠ word := by
  intro heq
  obtain ⟨c, hc, hcase⟩ := h.beyond s hbeyond
  obtain ⟨hascii, hk⟩ := hword c (by rwa [← heq, String.toList_ofList])
  exact hcase.elim (fun hcode => absurd hcode (by omega)) hk

/-- Whatever is made of the letters beyond ASCII, no more texts are lowered into a word without
`k`. -/
theorem Lowers.eq_word_iff (h : Lowers lower)
    (hword : ∀ c ∈ word.toList, c.toNat < 128 ∧ c ≠ 'k') (s : List Char) :
    String.ofList (lower s) = word ↔ String.ofList (s.map Char.toLower) = word := by
  by_cases hascii : ∀ c ∈ s, c.toNat < 128
  case pos => rw [h.ascii s hascii]
  case neg =>
    have hbeyond : ∃ c ∈ s, 128 ≤ c.toNat := by
      push Not at hascii
      exact hascii
    exact iff_of_false (h.not_eq_of_beyond hword hbeyond)
      (lowers_ascii.not_eq_of_beyond hword hbeyond)

theorem Lowers.mem_words_iff (h : Lowers lower) {words : List String}
    (hwords : ∀ word ∈ words, ∀ c ∈ word.toList, c.toNat < 128 ∧ c ≠ 'k') (s : List Char) :
    String.ofList (lower s) ∈ words ↔ String.ofList (s.map Char.toLower) ∈ words := by
  constructor
  · intro hmem
    rwa [(h.eq_word_iff (hwords _ hmem) s).1 rfl]
  · intro hmem
    rwa [(h.eq_word_iff (hwords _ hmem) s).2 rfl]

theorem parseFlag?_eq_true_iff :
    parseFlag? raw = some true ↔ String.ofList (raw.toList.map Char.toLower) ∈ ["true", "1"] := by
  unfold parseFlag?
  split <;> simp_all

theorem parseFlag?_eq_none_iff :
    parseFlag? raw = none ↔
      String.ofList (raw.toList.map Char.toLower) ∉ ["true", "1", "false", "0"] := by
  unfold parseFlag?
  split <;> simp_all

theorem IsFilled.isWord_iff (hfilled : IsFilled entry raw) (words : List String) :
    IsWord lower words entry ↔ String.ofList (lower (trim raw.toList)) ∈ words := by
  constructor
  · rintro ⟨raw', hfilled', hmem⟩
    rwa [hfilled.unique hfilled']
  · exact fun hmem => ⟨raw, hfilled, hmem⟩

/-- What a variable says as a flag: it is none, or it switches on or off. -/
theorem IsFilled.parseFlag?_cases (h : Lowers lower) (hfilled : IsFilled entry raw) :
    (parseFlag? (String.ofList (trim raw.toList)) = none ∧ NamesNoFlag lower entry) ∨
      ∃ on : Bool, parseFlag? (String.ofList (trim raw.toList)) = some on ∧
        ¬ NamesNoFlag lower entry ∧ (on = true ↔ IsOn lower entry) := by
  have hon : parseFlag? (String.ofList (trim raw.toList)) = some true ↔ IsOn lower entry := by
    rw [parseFlag?_eq_true_iff, String.toList_ofList, IsOn, hfilled.isWord_iff,
      h.mem_words_iff (by simp)]
  have hnone : parseFlag? (String.ofList (trim raw.toList)) = none ↔ NamesNoFlag lower entry := by
    rw [parseFlag?_eq_none_iff, String.toList_ofList, NamesNoFlag, hfilled.isWord_iff,
      h.mem_words_iff (by simp), and_iff_right ⟨raw, hfilled⟩]
  cases hflag : parseFlag? (String.ofList (trim raw.toList)) with
  | none => exact Or.inl ⟨rfl, hnone.1 hflag⟩
  | some on =>
    rw [hflag] at hon hnone
    refine Or.inr ⟨on, rfl, fun hno => Option.some_ne_none on (hnone.2 hno), ?_⟩
    rw [← hon, Option.some.injEq]

end Flags

/-! ## One setting -/

section Rules

variable {option entry : Option String} {default text text' : String}
  {lists extensions extensions' : List String}

theorem textSetting_nonBlank? (entry : Option String) (default : String) :
    TextSetting none entry default ((nonBlank? entry).getD default) := by
  by_cases hset : ∃ raw, IsFilled entry raw
  case pos =>
    obtain ⟨raw, hfilled⟩ := hset
    rw [hfilled.nonBlank?_eq]
    exact .ofVariable rfl hfilled
  case neg =>
    rw [not_exists] at hset
    rw [nonBlank?_eq_none hset]
    exact .byDefault rfl hset

theorem TextSetting.override (h : TextSetting none entry default text) (option : Option String) :
    TextSetting option entry default (option.getD text) := by
  cases option with
  | none => exact h
  | some value => exact .ofOption rfl

theorem TextSetting.unique (h : TextSetting option entry default text)
    (h' : TextSetting option entry default text') : text = text' := by
  cases h with
  | ofOption given =>
    cases h' with
    | ofOption given' => exact Option.some.inj (given.symm.trans given')
    | ofVariable missing' | byDefault missing' => cases given.symm.trans missing'
  | ofVariable missing filled =>
    cases h' with
    | ofOption given' => cases missing.symm.trans given'
    | ofVariable _ filled' => rw [filled.unique filled']
    | byDefault _ unset' => exact absurd filled (unset' _)
  | byDefault missing unset =>
    cases h' with
    | ofOption given' => cases missing.symm.trans given'
    | ofVariable _ filled' => exact absurd filled' (unset _)
    | byDefault => rfl

theorem ExtensionsSetting.override (h : ExtensionsSetting [] entry extensions)
    (lists : List String) :
    ExtensionsSetting lists entry
      (match lists.flatMap parseExtensions with
        | [] => extensions
        | extensions => extensions) := by
  split
  · next hnone =>
    cases h with
    | ofOptions named => exact absurd rfl named
    | ofVariable _ filled => exact .ofVariable hnone filled
    | byDefault _ unset => exact .byDefault hnone unset
  · next hnamed => exact .ofOptions hnamed

theorem ExtensionsSetting.unique (h : ExtensionsSetting lists entry extensions)
    (h' : ExtensionsSetting lists entry extensions') : extensions = extensions' := by
  cases h with
  | ofOptions named =>
    cases h' with
    | ofOptions => rfl
    | ofVariable unnamed' | byDefault unnamed' => exact absurd unnamed' named
  | ofVariable unnamed filled =>
    cases h' with
    | ofOptions named' => exact absurd unnamed named'
    | ofVariable _ filled' => rw [filled.unique filled']
    | byDefault _ unset' => exact absurd filled (unset' _)
  | byDefault unnamed unset =>
    cases h' with
    | ofOptions named' => exact absurd unnamed named'
    | ofVariable _ filled' => exact absurd filled' (unset _)
    | byDefault => rfl

end Rules

/-! ## All settings -/

variable {lower : List Char → List Char} {lookup lookup' : String → Option String}
  {o o' : Overrides} {s s' : Settings} {e e' : Failure}

theorem environmentExtensions_cases (lookup : String → Option String) :
    (NamesNoExtension (lookup Variable.extensions.name) ∧ environmentExtensions lookup =
        .error (.configuration "GRBAC_EXTENSIONS must name at least one extension")) ∨
      ∃ extensions, environmentExtensions lookup = .ok extensions ∧
        ¬ NamesNoExtension (lookup Variable.extensions.name) ∧
        ExtensionsSetting [] (lookup Variable.extensions.name) extensions := by
  by_cases hset : ∃ raw, IsFilled (lookup Variable.extensions.name) raw
  case pos =>
    obtain ⟨raw, hfilled⟩ := hset
    rw [environmentExtensions, hfilled.nonBlank?_eq]
    dsimp only
    rw [parseExtensions_trim]
    cases hnamed : parseExtensions raw with
    | nil => exact Or.inl ⟨⟨raw, hfilled, hnamed⟩, rfl⟩
    | cons first rest =>
      refine Or.inr ⟨_, rfl, ?_, hnamed ▸ .ofVariable rfl hfilled⟩
      rintro ⟨raw', hfilled', hnone⟩
      rw [← hfilled.unique hfilled', hnamed] at hnone
      cases hnone
  case neg =>
    rw [environmentExtensions, nonBlank?_eq_none (not_exists.1 hset)]
    refine Or.inr ⟨_, rfl, ?_, .byDefault rfl (not_exists.1 hset)⟩
    rintro ⟨raw, hfilled, -⟩
    exact hset ⟨raw, hfilled⟩

theorem environmentStrict_cases (h : Lowers lower) (lookup : String → Option String) :
    (NamesNoFlag lower (lookup Variable.strict.name) ∧ environmentStrict lookup =
        .error (.configuration "GRBAC_STRICT must be true, false, 1 or 0")) ∨
      ∃ strict : Bool, environmentStrict lookup = .ok strict ∧
        ¬ NamesNoFlag lower (lookup Variable.strict.name) ∧
        (strict = true ↔ IsOn lower (lookup Variable.strict.name)) := by
  by_cases hset : ∃ raw, IsFilled (lookup Variable.strict.name) raw
  case pos =>
    obtain ⟨raw, hfilled⟩ := hset
    rw [environmentStrict, hfilled.nonBlank?_eq]
    dsimp only
    rcases hfilled.parseFlag?_cases h with ⟨hflag, hno⟩ | ⟨on, hflag, hknown, hon⟩
    · rw [hflag]
      exact Or.inl ⟨hno, rfl⟩
    · rw [hflag]
      exact Or.inr ⟨on, rfl, hknown, hon⟩
  case neg =>
    rw [environmentStrict, nonBlank?_eq_none (not_exists.1 hset)]
    refine Or.inr ⟨false, rfl, fun hno => hset hno.1, iff_of_false Bool.false_ne_true ?_⟩
    rintro ⟨raw, hfilled, -⟩
    exact hset ⟨raw, hfilled⟩

theorem Resolved.override (h : Resolved lower lookup {} s) (o : Overrides) :
    Resolved lower lookup o (s.override o) where
  sourceDir := h.sourceDir.override o.sourceDir
  output := h.output.override o.output
  defaultHost := h.defaultHost.override o.defaultHost
  extensions := h.extensions.override o.extensions
  strict := by
    have hstrict : s.strict = true ↔ IsOn lower (lookup Variable.strict.name) :=
      h.strict.trans (or_iff_right Bool.false_ne_true)
    rw [Settings.override, Bool.or_eq_true, hstrict, or_comm]

/-- An environment has a fault, or its settings follow the rules. -/
theorem resolve_cases (h : Lowers lower) (lookup : String → Option String) (o : Overrides) :
    (∃ e, resolve lookup o = .error e ∧ IsFault lower lookup e) ∨
      ∃ s, resolve lookup o = .ok s ∧ (∀ e, ¬ IsFault lower lookup e) ∧
        Resolved lower lookup o s := by
  rw [resolve, ofEnvironment]
  rcases environmentExtensions_cases lookup with ⟨hno, hext⟩ | ⟨extensions, hext, hnamed, hrule⟩
  · rw [hext]
    exact Or.inl ⟨_, rfl, .extensions hno⟩
  rw [hext]
  rcases environmentStrict_cases h lookup with ⟨hno, hflag⟩ | ⟨strict, hflag, hknown, hon⟩
  · rw [hflag]
    exact Or.inl ⟨_, rfl, .strict hnamed hno⟩
  rw [hflag]
  refine Or.inr ⟨_, rfl, ?_, Resolved.override ?_ o⟩
  · rintro e (hno | ⟨-, hno⟩)
    · exact hnamed hno
    · exact hknown hno
  · exact ⟨textSetting_nonBlank? _ _, textSetting_nonBlank? _ _, textSetting_nonBlank? _ _, hrule,
      hon.trans (or_iff_right Bool.false_ne_true).symm⟩

theorem IsFault.unique (h : IsFault lower lookup e) (h' : IsFault lower lookup e') : e = e' := by
  cases h with
  | extensions unnamed =>
    cases h' with
    | extensions => rfl
    | strict named' => exact absurd unnamed named'
  | strict named =>
    cases h' with
    | extensions unnamed' => exact absurd unnamed' named
    | strict => rfl

theorem forall_not_isFault_iff :
    (∀ e, ¬ IsFault lower lookup e) ↔ ¬ NamesNoExtension (lookup Variable.extensions.name) ∧
      ¬ NamesNoFlag lower (lookup Variable.strict.name) := by
  constructor
  · intro hnone
    have hnamed : ¬ NamesNoExtension (lookup Variable.extensions.name) :=
      fun hno => hnone _ (.extensions hno)
    exact ⟨hnamed, fun hno => hnone _ (.strict hnamed hno)⟩
  · rintro ⟨hnamed, hknown⟩ e (hno | ⟨-, hno⟩)
    · exact hnamed hno
    · exact hknown hno

/-- A setting is the same in two runs that agree on its variable and its option. -/
theorem Resolved.frame (h : Resolved lower lookup o s) (h' : Resolved lower lookup' o' s')
    {v : Variable} (hvariable : lookup v.name = lookup' v.name) (hoption : v.SameOption o o') :
    v.SameSetting s s' := by
  cases v with
  | sourceDir =>
    have hrule := h.sourceDir
    rw [hvariable, show o.sourceDir = o'.sourceDir from hoption] at hrule
    exact hrule.unique h'.sourceDir
  | output =>
    have hrule := h.output
    rw [hvariable, show o.output = o'.output from hoption] at hrule
    exact hrule.unique h'.output
  | defaultHost =>
    have hrule := h.defaultHost
    rw [hvariable, show o.defaultHost = o'.defaultHost from hoption] at hrule
    exact hrule.unique h'.defaultHost
  | extensions =>
    have hrule := h.extensions
    rw [hvariable, show o.extensions = o'.extensions from hoption] at hrule
    exact hrule.unique h'.extensions
  | strict =>
    have hrule := h.strict
    rw [hvariable, show o.strict = o'.strict from hoption] at hrule
    exact Bool.eq_iff_iff.2 (hrule.trans h'.strict.symm)

theorem Resolved.unique (h : Resolved lower lookup o s) (h' : Resolved lower lookup o s') :
    s = s' := by
  have hsame : ∀ v : Variable, v.SameSetting s s' := fun v => h.frame h' rfl (by cases v <;> rfl)
  obtain ⟨sourceDir, output, defaultHost, extensions, strict⟩ := s
  exact (Settings.mk.injEq ..).mpr ⟨hsame .sourceDir, hsame .output, hsame .defaultHost,
    hsame .extensions, hsame .strict⟩

theorem resolve_eq_error_iff (h : Lowers lower) :
    resolve lookup o = .error e ↔ IsFault lower lookup e := by
  rcases resolve_cases h lookup o with ⟨e', hresolve, hfault⟩ | ⟨s, hresolve, hnone, -⟩
  · rw [hresolve, Except.error.injEq]
    exact ⟨fun heq => heq ▸ hfault, hfault.unique⟩
  · rw [hresolve]
    exact iff_of_false nofun (hnone e)

theorem resolve_eq_ok_iff (h : Lowers lower) :
    resolve lookup o = .ok s ↔ (∀ e, ¬ IsFault lower lookup e) ∧ Resolved lower lookup o s := by
  rcases resolve_cases h lookup o with ⟨e, hresolve, hfault⟩ | ⟨s', hresolve, hnone, hresolved⟩
  · rw [hresolve]
    exact iff_of_false nofun fun hok => hok.1 e hfault
  · rw [hresolve, Except.ok.injEq]
    exact ⟨fun heq => heq ▸ ⟨hnone, hresolved⟩, fun hok => hresolved.unique hok.2⟩

/-- An environment and options give settings exactly if extensions and flag are not at fault in the
environment, whatever the options are. Each setting then follows its own rule, and two runs that
have its variable and its option in common agree on it. A command line can ask for any options, save
for empty paths. -/
theorem resolve_field_by_field (h : Lowers lower) (lookup : String → Option String)
    (o : Overrides) :
    ((∃ arguments, CommandLine.parse? arguments = some (.generate o)) ↔
        o.sourceDir ≠ some "" ∧ o.output ≠ some "") ∧
      (∀ e, resolve lookup o = .error e ↔ IsFault lower lookup e) ∧
      (∀ s, resolve lookup o = .ok s ↔
        ¬ NamesNoExtension (lookup Variable.extensions.name) ∧
          ¬ NamesNoFlag lower (lookup Variable.strict.name) ∧ Resolved lower lookup o s) ∧
      (∀ s lookup' o' s', resolve lookup o = .ok s → resolve lookup' o' = .ok s' →
        ∀ v : Variable, lookup v.name = lookup' v.name → v.SameOption o o' →
          v.SameSetting s s') := by
  refine ⟨?_, fun e => resolve_eq_error_iff h, fun s => ?_, ?_⟩
  · rw [CommandLine.exists_parse?_generate_iff]
    exact ⟨fun hnamed => ⟨hnamed.sourceDir, hnamed.output⟩, fun hnamed => ⟨hnamed.1, hnamed.2⟩⟩
  · rw [resolve_eq_ok_iff h, forall_not_isFault_iff, and_assoc]
  · intro s lookup' o' s' hresolve hresolve' v hvariable hoption
    exact ((resolve_eq_ok_iff h).1 hresolve).2.frame ((resolve_eq_ok_iff h).1 hresolve').2
      hvariable hoption

/-- A blank directory, padded values, an option for the host, two for extensions that name none, and
a flag in capitals. -/
theorem resolve_of_every_layer :
    let lookup : String → Option String := fun name =>
      [("GRBAC_SOURCE_DIR", " \t"), ("GRBAC_OUTPUT", " out.json\n"),
        ("GRBAC_EXTENSIONS", " .RS, go"), ("GRBAC_STRICT", "\u2003TRUE ")].lookup name
    let o : Overrides := { defaultHost := some "", extensions := [" . ", ","] }
    let s : Settings :=
      { output := "out.json", defaultHost := "", extensions := ["rs", "go"], strict := true }
    Lowers lowerText ∧ resolve lookup o = .ok s ∧ Resolved lowerText lookup o s := by
  intro lookup o s
  have hresolve : resolve lookup o = .ok s := by decide +kernel
  have hrules := (resolve_field_by_field lowers_lowerText lookup o).2.2.1 s
  exact ⟨lowers_lowerText, hresolve, (hrules.1 hresolve).2.2⟩

end RoutePolicy.Settings
