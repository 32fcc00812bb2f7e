import RoutePolicy.Proofs.Json.Trail
import RoutePolicy.Proofs.Rule.Entries

/-!
# Faults in objects

What becomes of an object whose entries describe no rule. The entries before the fault are gathered
and have no say in it (`failsAt_of_gathers`): the trail of the fault names the key whose value does
not fit, or the object itself where a member is missing. Whether a value fits is settled by its text
alone, since no value is the beginning of another one.
-/

namespace RoutePolicy.Rule

open Json
open Text (Read Delivers)

variable {r : Rule} {e : Entry} {entries : List Entry} {parts : List (List Char)} {m : Member}
  {s rest value blanks : List Char} {trail : List Step}

namespace Draft

variable {d d' : Draft}

/-! ## Values of members -/

theorem Takes.ended (h : d.Takes m value d') (hends : m = .id → Ends rest) : Ended value rest := by
  have hlist : ∀ {v : List String}, SpellsList SpellsString v value → Ended value rest := by
    intro v hv
    obtain ⟨content, _, rfl⟩ := hv
    exact ended_cons (by decide)
  cases m with
  | id => exact .of_ends (hends rfl)
  | host | path | method => exact h.elim fun _ hv => hv.1.ended
  | authorizedRoles | forbiddenRoles => exact h.elim fun _ hv => hlist hv.1
  | allowAnyone =>
    obtain ⟨v, rfl, -⟩ := h
    cases v with
    | true => exact ended_cons (by decide)
    | false => exact ended_cons (by decide)

/-- Where a well-formed value stands, nothing else is taken. -/
theorem takes_of_readMember {rest' : List Char} (hblanks : Blanks blanks)
    (hvalue : Wellformed .value value) (hends : Ends rest)
    (h : Delivers (d.readMember m (blanks ++ (value ++ rest))) d' rest') : d.Takes m value d' := by
  -- What was taken is a well-formed value, too, and two of them cannot begin at one place.
  obtain ⟨blanks', piece, hblanks', hpiece, hends', hs⟩ := readMember_iff.1 h
  obtain ⟨rfl, rfl⟩ := hvalue.value_inj hpiece.wellformed (.of_ends hends) (hpiece.ended hends')
    hblanks hblanks' hs
  exact hpiece

/-- A value that does not fit is the value at fault, if it is not a list where one belongs. -/
theorem failsAt_readMember (d : Draft) (hblanks : Blanks blanks) (hvalue : Wellformed .value value)
    (hends : Ends rest) (hmisfit : ∀ r, ¬ m.Spells r value)
    (hlist : m ∈ Member.roleLists → ¬ IsList value) :
    FailsAt [] (d.readMember m (blanks ++ (value ++ rest))) := by
  have hnot : ∀ d' rest', ¬ Delivers (d.readMember m (blanks ++ (value ++ rest))) d' rest' := by
    intro d' rest' h
    obtain ⟨r, hr⟩ := exists_spells_of_takes (takes_of_readMember hblanks hvalue hends h)
    exact hmisfit r hr
  have hroles : m ∈ Member.roleLists →
      Direct (readList readString (blanks ++ (value ++ rest))) := by
    intro hm
    obtain ⟨c, tail, rfl, hc, -⟩ := hvalue.exists_eq_cons
    refine direct_readList_cons hblanks hc ?_
    intro hbracket
    rw [hbracket] at hvalue hlist
    exact hlist hm hvalue.isList
  have hdirect : Direct (d.readMember m (blanks ++ (value ++ rest))) := by
    cases m with
    | id => exact (direct_readInt64 _).map _
    | host | path | method => exact (direct_readString _).map _
    | authorizedRoles | forbiddenRoles => exact (hroles (by decide)).map _
    | allowAnyone => exact (direct_readBoolean _).map _
  obtain ⟨trail, hfails⟩ := exists_failsAt hnot
  rwa [hdirect.eq_nil hfails] at hfails

/-- The first item of a role list that is no text is the value at fault. -/
theorem failsAt_readMember_item (d : Draft) (hm : m ∈ Member.roleLists) {roles : List String}
    {good more : List (List Char)} {bad : List Char} (hblanks : Blanks blanks)
    (hlist : IsContainer .list (good ++ bad :: more) value)
    (hgood : List.Forall₂ SpellsString roles good) (hbad : Wellformed .value bad)
    (hmisfit : ∀ text, ¬ SpellsString text bad) (rest : List Char) :
    FailsAt [.item good.length] (d.readMember m (blanks ++ (value ++ rest))) := by
  have hitem : ∀ tail, Ends tail → FailsAt [] (readString (bad ++ tail)) :=
    fun tail hends => failsAt_readString hbad hends hmisfit
  have hread : FailsAt [.item good.length] (readList readString (blanks ++ (value ++ rest))) :=
    failsAt_readList reads_readString hgood hlist hbad.exists_eq_cons hitem hblanks rfl
  cases m with
  | authorizedRoles | forbiddenRoles => exact hread.map _
  | id | host | path | method | allowAnyone => exact absurd hm (by decide)

/-- A draft takes what stands under a key, or it is a fault. -/
theorem takesKey_of_delivers {name rest' : List Char}
    (hnew : ∀ m : Member, m.name = name → d.has m = false) (hblanks : Blanks blanks)
    (hvalue : Wellformed .value value) (hends : Ends rest)
    (h : Delivers (readMemberValue d name (blanks ++ (value ++ rest))) d' rest') :
    d.TakesKey name value d' := by
  unfold readMemberValue at h
  unfold TakesKey
  cases hm : Member.ofName? name with
  | some m =>
    simp only [hm] at h
    refine ⟨hnew m (Member.ofName?_eq_some_iff.1 hm), [], value, Blanks.nil, ?_, rfl⟩
    exact takes_of_readMember hblanks hvalue hends (delivers_within.1 h)
  | none =>
    simp only [hm] at h
    obtain ⟨_, _, rfl⟩ := Text.delivers_map.1 (delivers_within.1 h)
    exact ⟨hvalue.listPart, rfl⟩

theorem Takes.has {m' : Member} (h : d.Takes m value d') :
    d'.has m' = (d.has m' || decide (m' = m)) := by
  cases m with
  | id | host | path | method | authorizedRoles | forbiddenRoles | allowAnyone =>
    obtain ⟨v, -, rfl⟩ := h
    cases m' <;> simp [Draft.has]

theorem TakesKey.has {name part : List Char} (h : d.TakesKey name part d') :
    d'.has m = (d.has m || decide (m.name = name)) := by
  unfold TakesKey at h
  cases hm : Member.ofName? name with
  | some m' =>
    simp only [hm] at h
    obtain ⟨-, blanks, piece, -, hpiece, -⟩ := h
    have hname := Member.ofName?_eq_some_iff.1 hm
    simp only [hpiece.has, ← Member.name_inj, hname]
  | none =>
    simp only [hm] at h
    rw [← h.2, decide_eq_false (Member.ofName?_eq_none_iff.1 hm m), Bool.or_false]

theorem Gathers.has (h : Gathers d entries d') :
    d'.has m = (d.has m || decide (m.name ∈ keys entries)) := by
  induction h with
  | nil => simp [keys]
  | cons hentry _ ih =>
    simp only [ih, hentry.has, mem_keys_cons, Bool.decide_or, Bool.or_assoc]

/-- No member is gathered twice. -/
theorem Gathers.count_le (h : Gathers d entries d') :
    (keys entries).count m.name + (d.has m).toNat ≤ 1 := by
  induction h with
  | nil => exact (Nat.zero_add _).symm ▸ Bool.toNat_le _
  | @cons d d' d'' e entries hentry _ ih =>
    rw [keys, List.map_cons, ← keys]
    by_cases hm : m.name = e.name
    · rw [hentry.has, decide_eq_true hm, Bool.or_true] at ih
      rw [hentry.new hm, hm, List.count_cons_self, ← hm]
      exact ih
    · rw [hentry.has, decide_eq_false hm, Bool.or_false] at ih
      rw [List.count_cons_of_ne (Ne.symm hm)]
      exact ih

end Draft

open Draft (Gathers)

/-! ## Members of an object -/

section Steps

variable {isFirst : Bool} {d d' : Draft} {lead key name more tail : List Char}

theorem failsAt_of_repeated (hlead : Lead isFirst lead) (hkey : SpellsQuoted name key)
    (hm : m.name = name) (hhas : d.has m = true) (hs : s = lead ++ (key ++ more)) :
    FailsAt [] (readMembers d isFirst s) := by
  obtain ⟨content, hcontent, rfl⟩ := hkey
  simp only [List.append_assoc, List.cons_append, List.nil_append] at hs
  obtain ⟨_, hstart⟩ := exists_keyStart_key hlead hs
  obtain ⟨_, htext⟩ := readText_iff.2 ⟨content, hcontent, (rfl : content ++ '"' :: more = _)⟩
  rw [readMembers, hstart]
  simp only [within, htext, repeatedKey?, Member.ofName?_eq_some_iff.2 hm, hhas, if_true]
  exact failsAt_error rfl

theorem failsAt_of_value (hlead : Lead isFirst lead) (hkey : SpellsQuoted name key)
    (hblanks : Blanks blanks) (hnew : ∀ m : Member, m.name = name → d.has m = false)
    (hvalue : FailsAt trail (readMemberValue d name more))
    (hs : s = lead ++ (key ++ (blanks ++ ':' :: more))) :
    FailsAt trail (readMembers d isFirst s) := by
  obtain ⟨_, hread⟩ := exists_readMembers_eq hlead hkey hblanks hnew hs
  obtain ⟨f, hf, htrail⟩ := hvalue
  rw [hread, hf]
  exact failsAt_error htrail

theorem failsAt_behind (hlead : Lead isFirst lead) (hkey : SpellsQuoted name key)
    (hblanks : Blanks blanks) (hnew : ∀ m : Member, m.name = name → d.has m = false)
    (hvalue : Delivers (readMemberValue d name more) d' tail)
    (htail : FailsAt trail (readMembers d' false tail))
    (hs : s = lead ++ (key ++ (blanks ++ ':' :: more))) :
    FailsAt trail (readMembers d isFirst s) := by
  obtain ⟨_, hread⟩ := exists_readMembers_eq hlead hkey hblanks hnew hs
  obtain ⟨_, hvalue⟩ := hvalue
  rw [hread, hvalue]
  exact htail.map _

end Steps

/-! ## Entries of an object -/

section Entries

variable {isFirst : Bool} {d d' : Draft} {lead part inside tail : List Char}

theorem Draft.TakesKey.failsAt_behind (h : d.TakesKey e.name e.value d')
    (hpart : SpellsEntry e part) (hlead : Lead isFirst lead) (hends : Ends tail)
    (htail : FailsAt trail (readMembers d' false tail)) (hs : s = lead ++ (part ++ tail)) :
    FailsAt trail (readMembers d isFirst s) := by
  obtain ⟨key, before, after, hkey, hbefore, hafter, rfl⟩ := hpart
  have hvalue := (h.blanks_append hafter).delivers_readMemberValue hends
  refine Rule.failsAt_behind hlead hkey hbefore (fun _ hm => h.new hm) hvalue htail ?_
  rw [hs]
  simp only [List.append_assoc, List.cons_append]

/-- Entries that a draft gathers do not hide the fault of what follows them. -/
theorem failsAt_of_gathers (h : d.Gathers entries d')
    (hspells : List.Forall₂ SpellsEntry entries parts) (hparts : Parts isFirst parts inside)
    (hends : parts ≠ [] → Ends tail)
    (hfails : FailsAt trail (readMembers d' (isFirst && parts.isEmpty) tail))
    (hs : s = inside ++ tail) : FailsAt trail (readMembers d isFirst s) := by
  induction h generalizing isFirst parts inside s with
  | nil =>
    cases hspells
    cases hparts
    rw [List.isEmpty_nil, Bool.and_true] at hfails
    rw [hs]
    exact hfails
  | cons hentry _ ih =>
    cases hspells with
    | @cons _ part _ parts hpart hspells =>
      cases hparts with
      | @cons _ lead _ more _ hlead hparts =>
        have htail : Ends tail := hends (List.cons_ne_nil part parts)
        have hmore := ih hspells hparts (fun _ => htail)
          (by rwa [List.isEmpty_cons, Bool.and_false] at hfails) rfl
        refine hentry.failsAt_behind hpart hlead (hparts.ends_append htail) hmore ?_
        rw [hs]
        simp only [List.append_assoc]

/-- The fault of a value is told with its key. -/
theorem failsAt_entry (hpart : SpellsEntry ⟨m.name, value⟩ part) (hlead : Lead isFirst lead)
    (hnew : d.has m = false) (hends : Ends tail)
    (hvalue : ∀ {blanks rest}, Blanks blanks → Ends rest →
      FailsAt trail (d.readMember m (blanks ++ (value ++ rest))))
    (hs : s = lead ++ (part ++ tail)) :
    FailsAt (.member m.name :: trail) (readMembers d isFirst s) := by
  obtain ⟨key, before, after, hkey, hbefore, hafter, rfl⟩ := hpart
  have hread : FailsAt (.member m.name :: trail)
      (readMemberValue d m.name (after ++ (value ++ tail))) := by
    unfold readMemberValue
    rw [Member.ofName?_name]
    exact (hvalue hafter hends).within _
  refine failsAt_of_value hlead hkey hbefore ?_ hread ?_
  · intro m' hm'
    rw [Member.name_inj.1 hm']
    exact hnew
  · rw [hs]
    simp only [List.append_assoc, List.cons_append]

/-- The reader does not get past an entry that the draft does not take. -/
theorem exists_failsAt_entry (hpart : SpellsEntry e part) (hlead : Lead isFirst lead)
    (hvalue : Wellformed .value e.value) (hends : Ends tail)
    (htakes : ¬ ∃ d', d.TakesKey e.name e.value d') (hs : s = lead ++ (part ++ tail)) :
    ∃ trail, FailsAt trail (readMembers d isFirst s) := by
  obtain ⟨key, before, after, hkey, hbefore, hafter, rfl⟩ := hpart
  simp only [List.append_assoc, List.cons_append] at hs
  by_cases hnew : ∀ m : Member, m.name = e.name → d.has m = false
  · have hnot : ∀ d' rest', ¬ Delivers
        (readMemberValue d e.name (after ++ (e.value ++ tail))) d' rest' :=
      fun d' _ h => htakes ⟨d', Draft.takesKey_of_delivers hnew hafter hvalue hends h⟩
    obtain ⟨trail, hfails⟩ := exists_failsAt hnot
    exact ⟨trail, failsAt_of_value hlead hkey hbefore hnew hfails hs⟩
  · push Not at hnew
    obtain ⟨m, hm, hhas⟩ := hnew
    exact ⟨[], failsAt_of_repeated hlead hkey hm (by simpa using hhas) hs⟩

theorem Draft.exists_rule_eq_error (hm : m ∈ Member.required) (hhas : d.has m = false) :
    ∃ m', d.rule = .error m' := by
  cases hrule : d.rule with
  | error m' => exact ⟨m', rfl⟩
  | ok r =>
    unfold Draft.rule at hrule
    split at hrule
    · cases hrule
    · cases hrule
    · cases hrule
    · cases hrule
    · next hid hhost hpath hmethod =>
      cases m with
      | id => rw [Draft.has, hid] at hhas; cases hhas
      | host => rw [Draft.has, hhost] at hhas; cases hhas
      | path => rw [Draft.has, hpath] at hhas; cases hhas
      | method => rw [Draft.has, hmethod] at hhas; cases hhas
      | authorizedRoles | forbiddenRoles | allowAnyone => exact absurd hm (by decide)

theorem failsAt_closing (hm : m ∈ Member.required) (hhas : d.has m = false)
    (hblanks : Blanks blanks) (hs : s = blanks ++ '}' :: rest) :
    FailsAt [] (readMembers d isFirst s) := by
  obtain ⟨_, hrule⟩ := Draft.exists_rule_eq_error hm hhas
  obtain ⟨_, hstart⟩ := exists_keyStart_done isFirst hblanks hs
  rw [readMembers, hstart]
  simp only [within, hrule]
  exact failsAt_error rfl

/-- An object with well-formed values is read only if a draft gathers all of its entries, each
required member among them. -/
theorem gathers_of_not_failsAt (hspells : List.Forall₂ SpellsEntry entries parts)
    (hparts : Parts isFirst parts inside) (hvalues : ∀ e ∈ entries, Wellformed .value e.value)
    (hblanks : Blanks blanks) (hs : s = inside ++ (blanks ++ '}' :: rest))
    (hread : ∀ trail, ¬ FailsAt trail (readMembers d isFirst s)) :
    ∃ d', d.Gathers entries d' ∧ ∀ m ∈ Member.required, d'.has m = true := by
  induction hspells generalizing d isFirst inside s with
  | nil =>
    cases hparts
    refine ⟨d, .nil, fun m hm => ?_⟩
    by_contra hhas
    exact hread [] (failsAt_closing hm (Bool.not_eq_true _ ▸ hhas) hblanks hs)
  | @cons e part entries parts hpart hspells ih =>
    cases hparts with
    | @cons _ lead _ more _ hlead hparts =>
      obtain ⟨hvalue, hvalues⟩ := List.forall_mem_cons.1 hvalues
      have hends : Ends (more ++ (blanks ++ '}' :: rest)) := hparts.ends (b := .object) hblanks
      have htext : s = lead ++ (part ++ (more ++ (blanks ++ '}' :: rest))) := by
        rw [hs]
        simp only [List.append_assoc]
      -- An entry that the draft does not take stops the reader, for one reason or another.
      by_cases htakes : ∃ d', d.TakesKey e.name e.value d'
      · obtain ⟨d', htakes⟩ := htakes
        obtain ⟨d'', hgathers, hrequired⟩ := ih hparts hvalues rfl fun trail htail =>
          hread trail (htakes.failsAt_behind hpart hlead hends htail htext)
        exact ⟨d'', .cons htakes hgathers, hrequired⟩
      · obtain ⟨trail, hfails⟩ := exists_failsAt_entry hpart hlead hvalue hends htakes htext
        exact absurd hfails (hread trail)

end Entries

/-! ## Whole objects -/

section Objects

variable {object : List Char}

theorem failsAt_read {content : List Char} (h : FailsAt trail (readMembers {} true content))
    (hs : s = '{' :: content) : FailsAt trail (Rule.read s) := by
  obtain ⟨_, htoken⟩ := finds_iff.2 ⟨[], Blanks.nil, by decide, hs⟩
  rw [Rule.read, htoken]
  simp only [if_true]
  exact h.map _

/-- The text is an object of the given entries and one more; what follows need not be entries. -/
def GoesOnWith (entries : List Entry) (e : Entry) (object : List Char) : Prop :=
  ∃ parts part others, List.Forall₂ SpellsEntry entries parts ∧ SpellsEntry e part ∧
    IsContainer .object (parts ++ part :: others) object

theorem IsObject.goesOnWith {after : List Entry} (h : IsObject (entries ++ e :: after) object) :
    GoesOnWith entries e object := by
  obtain ⟨parts, hparts, hcontainer⟩ := h
  have htake := List.forall₂_take entries.length hparts
  have hdrop := List.forall₂_drop entries.length hparts
  rw [List.take_left] at htake
  rw [List.drop_left] at hdrop
  obtain ⟨part, others, hpart, -, heq⟩ := List.forall₂_cons_left_iff.1 hdrop
  rw [← List.take_append_drop entries.length parts, heq] at hcontainer
  exact ⟨_, part, others, htake, hpart, hcontainer⟩

/-- Behind entries that tell members of a rule, the first value that does not fit is at fault. -/
theorem failsAt_read_entry (htells : Tells r entries) (hnew : m.name ∉ keys entries)
    (hobject : GoesOnWith entries ⟨m.name, value⟩ object)
    (hvalue : ∀ (d : Draft) {blanks rest}, Blanks blanks → Ends rest →
      FailsAt trail (d.readMember m (blanks ++ (value ++ rest)))) (rest : List Char) :
    FailsAt (.member m.name :: trail) (Rule.read (object ++ rest)) := by
  obtain ⟨parts, part, others, hspells, hpart, inside, after, hinside, hafter, rfl⟩ := hobject
  obtain ⟨before, _, hbefore, hbehind, rfl⟩ := hinside.exists_of_append
  cases hbehind with
  | @cons _ lead _ more _ hlead hmore =>
    have hends : Ends (more ++ (after ++ '}' :: rest)) := hmore.ends (b := .object) hafter
    have hentry := failsAt_entry hpart hlead (Draft.has_of_keys r hnew) hends (hvalue _) rfl
    have hlast : parts ≠ [] → Ends (lead ++ (part ++ (more ++ (after ++ '}' :: rest)))) := by
      intro hparts
      rw [List.isEmpty_eq_false_iff.2 hparts, Bool.and_false] at hlead
      exact hlead.ends
    have hmembers := failsAt_of_gathers htells.gathers hspells hbefore hlast hentry rfl
    refine failsAt_read hmembers ?_
    simp only [Bracket.opening, Bracket.closing, List.append_assoc, List.cons_append,
      List.nil_append]

theorem failsAt_read_missing (htells : Tells r entries) (hobject : IsObject entries object)
    (hm : m ∈ Member.required) (hmissing : m.name ∉ keys entries) (rest : List Char) :
    FailsAt [] (Rule.read (object ++ rest)) := by
  obtain ⟨parts, hparts, inside, after, hinside, hafter, rfl⟩ := hobject
  have hclosing : FailsAt [] (readMembers (.of r fun m => decide (m.name ∈ keys entries))
      (true && parts.isEmpty) (after ++ '}' :: rest)) :=
    failsAt_closing hm (Draft.has_of_keys r hmissing) hafter rfl
  have hmembers := failsAt_of_gathers htells.gathers hparts hinside
    (fun _ => ends_blanks_append hafter (by decide)) hclosing rfl
  refine failsAt_read hmembers ?_
  simp only [Bracket.opening, Bracket.closing, List.append_assoc, List.cons_append,
    List.nil_append]

/-- An object whose values are well-formed spells a rule only if it has every required member and
none of the members twice. -/
theorem SpellsRule.keys_of_isObject {r : Rule} (h : SpellsRule r object)
    (hobject : IsObject entries object) (hvalues : ∀ e ∈ entries, Wellformed .value e.value) :
    (∀ m ∈ Member.required, m.name ∈ keys entries) ∧
      ∀ m : Member, (keys entries).count m.name ≤ 1 := by
  obtain ⟨parts, hparts, inside, after, hinside, hafter, rfl⟩ := hobject
  have hread : Delivers (Rule.read ('{' :: (inside ++ (after ++ ['}'])))) r [] := by
    have hread : Delivers (Rule.read ([] ++ ('{' :: (inside ++ (after ++ ['}'])) ++ []))) r [] :=
      delivers_read Blanks.nil h
    rwa [List.append_nil] at hread
  have hnot : ∀ trail, ¬ FailsAt trail (readMembers {} true (inside ++ (after ++ '}' :: []))) :=
    fun trail hfails => (failsAt_read hfails rfl).not_delivers r [] hread
  obtain ⟨d, hgathers, hrequired⟩ :=
    gathers_of_not_failsAt hparts hinside hvalues hafter rfl hnot
  constructor
  · intro m hm
    have hhas := hgathers.has (m := m)
    rw [hrequired m hm, Draft.has_empty, Bool.false_or] at hhas
    exact of_decide_eq_true hhas.symm
  · intro m
    have hcount := hgathers.count_le (m := m)
    rwa [Draft.has_empty] at hcount

end Objects

end RoutePolicy.Rule
