import RoutePolicy.Proofs.Json.Parts
import RoutePolicy.Rule.Reader

/-!
# Spellings of rules

A rule is read from an object that names its members, in any order and among others, or from a list
of its members. What has been read so far is a draft: `Draft.Takes` says which text gives a member
its value, and `Members` and `Positional` what a whole container makes of a draft. The reader accepts
these spellings and no others, and the written form of a rule is one of them.
-/

namespace RoutePolicy.Rule

open Json
open Text (Read Delivers delivers_of_eq delivers_ok not_delivers_error delivers_after)

variable {s rest : List Char}

namespace Draft

/-- The text spells a value of the member, and the second draft is the first with that value. -/
def Takes (d : Draft) (m : Member) (piece : List Char) (d' : Draft) : Prop :=
  match m with
  | .id => ∃ v, SpellsInt64 v piece ∧ { d with id := some v } = d'
  | .host => ∃ v, SpellsString v piece ∧ { d with host := some v } = d'
  | .path => ∃ v, SpellsString v piece ∧ { d with path := some v } = d'
  | .method => ∃ v, SpellsString v piece ∧ { d with method := some v } = d'
  | .authorizedRoles =>
    ∃ v, SpellsList SpellsString v piece ∧ { d with authorizedRoles := some v } = d'
  | .forbiddenRoles =>
    ∃ v, SpellsList SpellsString v piece ∧ { d with forbiddenRoles := some v } = d'
  | .allowAnyone => ∃ v, SpellsBoolean v piece ∧ { d with allowAnyone := some v } = d'

theorem delivers_readMember_of_reads {α : Type} {read : (s : List Char) → Except Fault (Read α s)}
    {spells : α → List Char → Prop} (h : Reads read spells) {f : α → Draft} {d' : Draft} :
    Delivers ((read s).map (·.map f)) d' rest ↔
      ∃ blanks piece, Blanks blanks ∧ (∃ v, spells v piece ∧ f v = d') ∧
        s = blanks ++ (piece ++ rest) := by
  simp only [Text.delivers_map, h.delivers_iff]
  constructor
  · rintro ⟨v, ⟨blanks, piece, hblanks, hv, hs⟩, hd⟩
    exact ⟨blanks, piece, hblanks, ⟨v, hv, hd⟩, hs⟩
  · rintro ⟨blanks, piece, hblanks, ⟨v, hv, hd⟩, hs⟩
    exact ⟨v, ⟨blanks, piece, hblanks, hv, hs⟩, hd⟩

/-- A member is read from what it takes. Only a number needs to end. -/
theorem readMember_iff {d d' : Draft} {m : Member} :
    Delivers (d.readMember m s) d' rest ↔
      ∃ blanks piece, Blanks blanks ∧ d.Takes m piece d' ∧ (m = .id → Ends rest) ∧
        s = blanks ++ (piece ++ rest) := by
  have other : m ≠ .id → ((∃ blanks piece, Blanks blanks ∧ d.Takes m piece d' ∧
      (m = .id → Ends rest) ∧ s = blanks ++ (piece ++ rest)) ↔
      ∃ blanks piece, Blanks blanks ∧ d.Takes m piece d' ∧ s = blanks ++ (piece ++ rest)) := by
    intro hm
    simp only [hm, false_implies, true_and]
  cases m with
  | id =>
    simp only [readMember, Text.delivers_map, readInt64_iff, true_implies]
    constructor
    · rintro ⟨v, ⟨blanks, piece, hblanks, hv, hends, hs⟩, hd⟩
      exact ⟨blanks, piece, hblanks, ⟨v, hv, hd⟩, hends, hs⟩
    · rintro ⟨blanks, piece, hblanks, ⟨v, hv, hd⟩, hends, hs⟩
      exact ⟨v, ⟨blanks, piece, hblanks, hv, hends, hs⟩, hd⟩
  | host | path | method =>
    rw [other Member.noConfusion]
    exact delivers_readMember_of_reads reads_readString
  | authorizedRoles | forbiddenRoles =>
    rw [other Member.noConfusion]
    exact delivers_readMember_of_reads reads_readString.readList
  | allowAnyone =>
    rw [other Member.noConfusion]
    exact delivers_readMember_of_reads reads_readBoolean

theorem Takes.wellformed {d d' : Draft} {m : Member} {piece : List Char}
    (h : d.Takes m piece d') : Wellformed .value piece := by
  cases m with
  | id => exact h.elim fun _ hv => hv.1.wellformed
  | host | path | method => exact h.elim fun _ hv => reads_readString.wellformed hv.1
  | authorizedRoles | forbiddenRoles =>
    exact h.elim fun _ hv => reads_readString.readList.wellformed hv.1
  | allowAnyone => exact h.elim fun _ hv => reads_readBoolean.wellformed hv.1

/-- The text behind a key and its colon gives the draft the value of a member that it lacks, or it is
a value under a key of no member. -/
def TakesKey (d : Draft) (key part : List Char) (d' : Draft) : Prop :=
  match Member.ofName? key with
  | some m => d.has m = false ∧
      ∃ blanks piece, Blanks blanks ∧ d.Takes m piece d' ∧ part = blanks ++ piece
  | none => Wellformed (.part .list) part ∧ d = d'

theorem TakesKey.wellformed {d d' : Draft} {key part : List Char} (h : d.TakesKey key part d') :
    Wellformed (.part .list) part := by
  unfold TakesKey at h
  split at h
  · obtain ⟨-, blanks, piece, hblanks, hpiece, rfl⟩ := h
    exact .item hblanks hpiece.wellformed
  · exact h.1

theorem TakesKey.new {d d' : Draft} {key part : List Char} (h : d.TakesKey key part d')
    {m : Member} (hm : m.name = key) : d.has m = false := by
  unfold TakesKey at h
  rw [Member.ofName?_eq_some_iff.2 hm] at h
  exact h.1

theorem repeatedKey?_eq_none_iff {d : Draft} {key : List Char} :
    repeatedKey? d key s = none ↔ ∀ m, Member.ofName? key = some m → d.has m = false := by
  unfold repeatedKey?
  split
  · next m hm =>
    simp only [hm, Option.some.injEq, forall_eq', ite_eq_right_iff, reduceCtorEq, imp_false,
      Bool.not_eq_true]
  · next hm => simp only [hm, reduceCtorEq, false_implies, implies_true]

theorem takesKey_of_readMemberValue {d d' : Draft} {key : List Char}
    (hnew : ∀ m, Member.ofName? key = some m → d.has m = false)
    (h : Delivers (readMemberValue d key s) d' rest) :
    ∃ part, d.TakesKey key part d' ∧ s = part ++ rest := by
  unfold readMemberValue at h
  unfold TakesKey
  cases hm : Member.ofName? key with
  | some m =>
    simp only [hm] at h
    obtain ⟨blanks, piece, hblanks, hpiece, -, hs⟩ := readMember_iff.1 (delivers_within.1 h)
    refine ⟨blanks ++ piece, ⟨hnew m hm, blanks, piece, hblanks, hpiece, rfl⟩, ?_⟩
    rw [hs, List.append_assoc]
  | none =>
    simp only [hm] at h
    obtain ⟨_, hskip, rfl⟩ := Text.delivers_map.1 (delivers_within.1 h)
    obtain ⟨part, hpart, hs⟩ := exists_of_skipValue hskip
    exact ⟨part, ⟨hpart, rfl⟩, hs⟩

theorem TakesKey.delivers_readMemberValue {d d' : Draft} {key part : List Char}
    (h : d.TakesKey key part d') (hends : Ends rest) :
    Delivers (readMemberValue d key (part ++ rest)) d' rest := by
  unfold TakesKey at h
  unfold readMemberValue
  cases hm : Member.ofName? key with
  | some m =>
    simp only [hm] at h ⊢
    obtain ⟨-, blanks, piece, hblanks, hpiece, rfl⟩ := h
    refine delivers_within.2 (readMember_iff.2 ⟨blanks, piece, hblanks, hpiece, fun _ => hends, ?_⟩)
    rw [List.append_assoc]
  | none =>
    simp only [hm] at h ⊢
    obtain ⟨hpart, rfl⟩ := h
    exact delivers_within.2 (Text.delivers_map.2 ⟨(), delivers_skipValue hpart hends, rfl⟩)

end Draft

/-! ## Objects -/

theorem keyStart_eq_done {isFirst : Bool} {closing : Read Char s}
    (h : keyStart isFirst s = .ok (.done closing)) :
    ∃ blanks, Blanks blanks ∧ s = blanks ++ '}' :: closing.rest := by
  have notKey : ∀ {token : Read Char s}, keyQuote token ≠ .ok (.done closing) := by
    intro token h
    unfold keyQuote at h
    split at h
    · cases h
    · cases h
  unfold keyStart at h
  split at h
  · cases h
  next token htoken =>
  split at h
  · next hclosing =>
    obtain rfl := KeyStart.done.inj (Except.ok.inj h)
    obtain ⟨blanks, hblanks, -, hs⟩ := finds_iff.1 (finds_of_eq htoken)
    rw [hclosing] at hs
    exact ⟨blanks, hblanks, hs⟩
  split at h
  · exact absurd h notKey
  split at h
  · split at h
    · cases h
    split at h
    · cases h
    · exact absurd h notKey
  · cases h

theorem keyQuote_eq_key {token quote : Read Char s} (h : keyQuote token = .ok (.key quote)) :
    token.value = '"' ∧ token = quote := by
  unfold keyQuote at h
  split at h
  · next hquote => exact ⟨hquote, KeyStart.key.inj (Except.ok.inj h)⟩
  · cases h

theorem keyStart_eq_key {isFirst : Bool} {quote : Read Char s}
    (h : keyStart isFirst s = .ok (.key quote)) :
    ∃ lead, Lead isFirst lead ∧ s = lead ++ '"' :: quote.rest := by
  unfold keyStart at h
  split at h
  · cases h
  next token htoken =>
  obtain ⟨blanks, hblanks, -, hs⟩ := finds_iff.1 (finds_of_eq htoken)
  split at h
  · cases h
  split at h
  · next hfirst =>
    obtain ⟨hquote, rfl⟩ := keyQuote_eq_key h
    rw [hquote] at hs
    exact ⟨blanks, hfirst ▸ .first hblanks, hs⟩
  next hfirst =>
  split at h
  · next hcomma =>
    split at h
    · cases h
    next next hnext =>
    split at h
    · cases h
    · obtain ⟨hquote, rfl⟩ := keyQuote_eq_key h
      obtain ⟨blanks', hblanks', -, hrest⟩ := finds_iff.1 (finds_of_eq hnext)
      refine ⟨blanks ++ ',' :: blanks', ?_, ?_⟩
      · rw [Bool.not_eq_true] at hfirst
        exact hfirst ▸ .next hblanks hblanks'
      · rw [hcomma, hrest, show next.value = '"' from hquote] at hs
        rw [List.append_assoc]
        exact hs
  · cases h

theorem exists_keyStart_done (isFirst : Bool) {blanks : List Char} (hblanks : Blanks blanks)
    (hs : s = blanks ++ '}' :: rest) :
    ∃ shorter, keyStart isFirst s = .ok (.done ⟨'}', rest, shorter⟩) := by
  obtain ⟨hshorter, htoken⟩ := finds_iff.2 ⟨blanks, hblanks, by decide, hs⟩
  refine ⟨hshorter, ?_⟩
  rw [keyStart, htoken]
  simp only [if_true]

theorem exists_keyStart_key {isFirst : Bool} {lead : List Char} (hlead : Lead isFirst lead)
    (hs : s = lead ++ '"' :: rest) :
    ∃ shorter, keyStart isFirst s = .ok (.key ⟨'"', rest, shorter⟩) := by
  cases hlead with
  | first hblanks =>
    obtain ⟨hshorter, htoken⟩ := finds_iff.2 ⟨_, hblanks, by decide, hs⟩
    refine ⟨hshorter, ?_⟩
    rw [keyStart, htoken]
    simp only [if_neg (show ¬ '"' = '}' by decide), if_true, keyQuote]
  | @next blanks blanks' hblanks hblanks' =>
    rw [List.append_assoc] at hs
    obtain ⟨hcomma, htoken⟩ := finds_iff.2 ⟨blanks, hblanks, by decide, hs⟩
    obtain ⟨hnext, htoken'⟩ :=
      finds_iff.2 ⟨blanks', hblanks', by decide, (rfl : blanks' ++ '"' :: rest = _)⟩
    refine ⟨Nat.lt_trans hnext hcomma, ?_⟩
    rw [keyStart, htoken]
    simp only [if_neg (show ¬ ',' = '}' by decide), Bool.false_eq_true, if_false, if_true]
    rw [show token? (blanks'.append ('"' :: rest)) = _ from htoken']
    simp only [if_neg (show ¬ '"' = '}' by decide), keyQuote, Read.after, if_true]

theorem readColon_iff :
    Delivers (readColon s) () rest ↔ ∃ blanks, Blanks blanks ∧ s = blanks ++ ':' :: rest := by
  constructor
  · intro h
    unfold readColon at h
    split at h
    · exact absurd h not_delivers_error
    next token htoken =>
    split at h
    · next hcolon =>
      obtain ⟨-, hrest⟩ := delivers_ok.1 h
      obtain ⟨blanks, hblanks, -, hs⟩ := finds_iff.1 (finds_of_eq htoken)
      rw [hcolon, show token.rest = rest from hrest] at hs
      exact ⟨blanks, hblanks, hs⟩
    · exact absurd h not_delivers_error
  · rintro ⟨blanks, hblanks, hs⟩
    obtain ⟨_, htoken⟩ := finds_iff.2 ⟨blanks, hblanks, by decide, hs⟩
    rw [readColon, htoken]
    simp only [if_true]
    exact delivers_ok.2 ⟨rfl, rfl⟩

/-- Behind a key that is new, the value decides how the object goes on. -/
theorem exists_readMembers_eq {isFirst : Bool} {d : Draft} {lead name key blanks more : List Char}
    (hlead : Lead isFirst lead) (hkey : SpellsQuoted name key) (hblanks : Blanks blanks)
    (hnew : ∀ m : Member, m.name = name → d.has m = false)
    (hs : s = lead ++ (key ++ (blanks ++ ':' :: more))) :
    ∃ shorter : more.length < s.length, readMembers d isFirst s =
      match readMemberValue d name more with
      | .error f => .error f
      | .ok value =>
        let first : Read Unit s := ⟨(), more, shorter⟩
        (readMembers value.value false value.rest).map (first.after value).after := by
  obtain ⟨content, hcontent, rfl⟩ := hkey
  simp only [List.append_assoc, List.cons_append, List.nil_append] at hs
  obtain ⟨hquote, hstart⟩ := exists_keyStart_key hlead hs
  obtain ⟨hend, htext⟩ := readText_iff.2
    ⟨content, hcontent, (rfl : content ++ '"' :: (blanks ++ ':' :: more) = _)⟩
  obtain ⟨hmore, hcolon⟩ := readColon_iff.2 ⟨blanks, hblanks, (rfl : blanks ++ ':' :: more = _)⟩
  have hkeyNew : ∀ s, repeatedKey? d name s = none := fun s =>
    Draft.repeatedKey?_eq_none_iff.2 fun m hm => hnew m (Member.ofName?_eq_some_iff.1 hm)
  refine ⟨Nat.lt_trans hmore (Nat.lt_trans hend hquote), ?_⟩
  rw [readMembers, hstart]
  simp only [within, htext, hkeyNew, hcolon]
  cases readMemberValue d name more with
  | error f => rfl
  | ok value => rfl

/-- What the rest of an object makes of a draft, behind its opening bracket or behind a member. -/
inductive Members : Bool → Draft → List Char → Draft → Prop
  | done {isFirst : Bool} {d : Draft} {blanks : List Char} (hblanks : Blanks blanks) :
      Members isFirst d (blanks ++ ['}']) d
  | member {isFirst : Bool} {d d' d'' : Draft} {lead key name blanks part more : List Char}
      (hlead : Lead isFirst lead) (hkey : SpellsQuoted name key) (hblanks : Blanks blanks)
      (hpart : d.TakesKey name part d') (hmore : Members false d' more d'') :
      Members isFirst d (lead ++ (key ++ (blanks ++ ':' :: (part ++ more)))) d''

theorem Members.wellformed {isFirst : Bool} {d d' : Draft} {piece : List Char}
    (h : Members isFirst d piece d') : Wellformed (formBehind .object isFirst) piece := by
  induction h with
  | @done isFirst d blanks hblanks =>
    cases isFirst with
    | true => exact .empty hblanks
    | false => exact .last hblanks
  | @member isFirst d d' d'' lead key name blanks part more hlead hkey hblanks hpart _ ih =>
    cases hlead with
    | first hlead =>
      have hparts := Wellformed.parts (.member hlead hkey.isQuoted hblanks hpart.wellformed) ih
      simp only [List.append_assoc, List.cons_append] at hparts
      exact hparts
    | next hbefore hafter =>
      have hnext :=
        Wellformed.next hbefore (.member hafter hkey.isQuoted hblanks hpart.wellformed) ih
      simp only [List.append_assoc, List.cons_append] at hnext ⊢
      exact hnext

theorem members_of_readMembers {isFirst : Bool} {d : Draft} {r : Rule}
    (h : Delivers (readMembers d isFirst s) r rest) :
    ∃ piece d', Members isFirst d piece d' ∧ d'.rule = .ok r ∧ s = piece ++ rest := by
  fun_induction readMembers d isFirst s generalizing rest with
  | case1 | case3 | case4 | case5 | case6 | case7 => exact absurd h not_delivers_error
  | case2 d isFirst s closing hclosing r' hrule =>
    obtain ⟨rfl, hrest⟩ := delivers_ok.1 h
    obtain ⟨blanks, hblanks, hs⟩ := keyStart_eq_done (within_eq_ok.1 hclosing)
    refine ⟨blanks ++ ['}'], d, .done hblanks, hrule, ?_⟩
    rw [show closing.rest = rest from hrest] at hs
    rw [List.append_assoc]
    exact hs
  | case8 d isFirst s quote hquote key hkey hnew colon hcolon more hmore member =>
    rename_i ih
    obtain ⟨lead, hlead, hs⟩ := keyStart_eq_key (within_eq_ok.1 hquote)
    obtain ⟨content, hcontent, hkeyRest⟩ :=
      readText_iff.1 (delivers_within.1 (delivers_of_eq hkey))
    obtain ⟨blanks, hblanks, hcolonRest⟩ := readColon_iff.1 (delivers_of_eq hcolon)
    obtain ⟨part, hpart, hvalueRest⟩ := Draft.takesKey_of_readMemberValue
      (Draft.repeatedKey?_eq_none_iff.1 hnew) (delivers_of_eq hmore)
    obtain ⟨piece, d', hmembers, hrule, hrest⟩ := ih (delivers_after.1 h)
    refine ⟨_, d', .member hlead ⟨content, hcontent, rfl⟩ hblanks hpart hmembers, hrule, ?_⟩
    rw [hs, hkeyRest, hcolonRest, hvalueRest, show more.rest = _ from hrest]
    simp only [List.append_assoc, List.cons_append, List.nil_append]

theorem Members.delivers_readMembers {isFirst : Bool} {d d' : Draft} {r : Rule} {piece : List Char}
    (h : Members isFirst d piece d') (hrule : d'.rule = .ok r) (hs : s = piece ++ rest) :
    Delivers (readMembers d isFirst s) r rest := by
  induction h generalizing s with
  | @done isFirst d blanks hblanks =>
    rw [List.append_assoc] at hs
    obtain ⟨_, hstart⟩ := exists_keyStart_done isFirst hblanks hs
    rw [readMembers, hstart]
    simp only [within, hrule]
    exact delivers_ok.2 ⟨rfl, rfl⟩
  | @member isFirst d d' d'' lead key name blanks part more hlead hkey hblanks hpart hmore ih =>
    simp only [List.append_assoc, List.cons_append] at hs
    obtain ⟨_, hread⟩ :=
      exists_readMembers_eq hlead hkey hblanks (fun _ hm => hpart.new hm) hs
    have hends : Ends (more ++ rest) := hmore.wellformed.ends_more
    obtain ⟨_, hvalue⟩ := hpart.delivers_readMemberValue hends
    have htail : Delivers (readMembers d' false (more ++ rest)) r rest := ih hrule rfl
    rw [hread, hvalue]
    exact delivers_after.2 htail

/-! ## Lists -/

theorem readListEnd_iff :
    Delivers (readListEnd s) () rest ↔ ∃ blanks, Blanks blanks ∧ s = blanks ++ ']' :: rest := by
  constructor
  · intro h
    unfold readListEnd at h
    split at h
    · exact absurd h not_delivers_error
    next token htoken =>
    split at h
    · next hclosing =>
      obtain ⟨-, hrest⟩ := delivers_ok.1 h
      obtain ⟨blanks, hblanks, -, hs⟩ := finds_iff.1 (finds_of_eq htoken)
      rw [hclosing, show token.rest = rest from hrest] at hs
      exact ⟨blanks, hblanks, hs⟩
    split at h
    · split at h
      · exact absurd h not_delivers_error
      split at h
      · exact absurd h not_delivers_error
      · exact absurd h not_delivers_error
    · exact absurd h not_delivers_error
  · rintro ⟨blanks, hblanks, hs⟩
    obtain ⟨_, htoken⟩ := finds_iff.2 ⟨blanks, hblanks, by decide, hs⟩
    rw [readListEnd, htoken]
    simp only [if_true]
    exact delivers_ok.2 ⟨rfl, rfl⟩

/-- What the rest of a list makes of a draft when the given members are still to come. -/
inductive Positional : Bool → List Member → Draft → List Char → Draft → Prop
  | done {isFirst : Bool} {members : List Member} {d : Draft} {blanks : List Char}
      (hblanks : Blanks blanks) : Positional isFirst members d (blanks ++ [']']) d
  | item {isFirst : Bool} {m : Member} {members : List Member} {d d' d'' : Draft}
      {lead piece more : List Char} (hlead : Lead isFirst lead) (hpiece : d.Takes m piece d')
      (hmore : Positional false members d' more d'') :
      Positional isFirst (m :: members) d (lead ++ (piece ++ more)) d''

theorem Positional.wellformed {isFirst : Bool} {members : List Member} {d d' : Draft}
    {piece : List Char} (h : Positional isFirst members d piece d') :
    Wellformed (formBehind .list isFirst) piece := by
  induction h with
  | @done isFirst _ _ blanks hblanks =>
    cases isFirst with
    | true => exact .empty hblanks
    | false => exact .last hblanks
  | item hlead hpiece _ ih => exact wellformed_item hlead hpiece.wellformed ih

theorem positional_of_end {isFirst : Bool} {members : List Member} {d : Draft} {r r' : Rule}
    {α : Type} {closing : Read α s} {blanks : List Char} (hblanks : Blanks blanks)
    (hs : s = blanks ++ ']' :: closing.rest) (hrule : d.rule = .ok r')
    (h : Delivers (.ok (closing.map fun _ => r') : Except Fault (Read Rule s)) r rest) :
    ∃ piece d', Positional isFirst members d piece d' ∧ d'.rule = .ok r ∧ s = piece ++ rest := by
  obtain ⟨rfl, hrest⟩ := delivers_ok.1 h
  refine ⟨blanks ++ [']'], d, .done hblanks, hrule, ?_⟩
  rw [show closing.rest = rest from hrest] at hs
  rw [List.append_assoc]
  exact hs

theorem positional_of_readPositional {index : Nat} {members : List Member} {d : Draft} {r : Rule}
    (h : Delivers (readPositional d index members s) r rest) :
    ∃ piece d', Positional (index == 0) members d piece d' ∧ d'.rule = .ok r ∧
      s = piece ++ rest := by
  induction members generalizing d index s rest with
  | nil =>
    unfold readPositional at h
    split at h
    · exact absurd h not_delivers_error
    next closing hclosing =>
    obtain ⟨blanks, hblanks, hs⟩ := readListEnd_iff.1 (delivers_of_eq hclosing)
    split at h
    · next r' hrule => exact positional_of_end hblanks hs hrule h
    · exact absurd h not_delivers_error
  | cons m members ih =>
    unfold readPositional at h
    split at h
    · exact absurd h not_delivers_error
    · next closing hclosing =>
      obtain ⟨blanks, hblanks, hs⟩ := itemStart_eq_done hclosing
      split at h
      · next r' hrule => exact positional_of_end hblanks hs hrule h
      · exact absurd h not_delivers_error
    · next first hfirst =>
      split at h
      · exact absurd h not_delivers_error
      next value hvalue =>
      obtain ⟨lead, hlead, hs⟩ := itemStart_eq_item hfirst
      obtain ⟨blanks, piece, hblanks, hpiece, -, htext⟩ :=
        Draft.readMember_iff.1 (delivers_within.1 (delivers_of_eq hvalue))
      obtain ⟨more, d', hmore, hrule, hrest⟩ := ih (delivers_after.1 h)
      refine ⟨lead ++ blanks ++ (piece ++ more), d', .item (hlead.append hblanks) hpiece hmore,
        hrule, ?_⟩
      rw [hs, htext, show value.rest = _ from hrest]
      simp only [List.append_assoc]

theorem Positional.delivers_readPositional {isFirst : Bool} {members : List Member} {d d' : Draft}
    {r : Rule} {piece : List Char} (h : Positional isFirst members d piece d')
    (hrule : d'.rule = .ok r) {index : Nat} (hfirst : (index == 0) = isFirst)
    (hs : s = piece ++ rest) : Delivers (readPositional d index members s) r rest := by
  induction h generalizing s index with
  | @done isFirst members d blanks hblanks =>
    rw [List.append_assoc] at hs
    cases members with
    | nil =>
      obtain ⟨_, hclosing⟩ := readListEnd_iff.2 ⟨blanks, hblanks, hs⟩
      rw [readPositional, hclosing]
      simp only [hrule]
      exact delivers_ok.2 ⟨rfl, rfl⟩
    | cons m members =>
      obtain ⟨_, hstart⟩ := exists_itemStart_done isFirst hblanks hs
      rw [readPositional, hfirst, hstart]
      simp only [hrule]
      exact delivers_ok.2 ⟨rfl, rfl⟩
  | @item isFirst m members d d' d'' lead piece more hlead hpiece hmore ih =>
    obtain ⟨c, tail, hcons, hc, hclosing⟩ := hpiece.wellformed.exists_eq_cons
    have hstart : s = lead ++ c :: (tail ++ (more ++ rest)) := by
      rw [hs, hcons]
      simp only [List.append_assoc, List.cons_append]
    obtain ⟨_, hitemStart⟩ := exists_itemStart_item hlead hc hclosing hstart
    have hends : Ends (more ++ rest) := hmore.wellformed.ends_more
    have hread : Delivers (d.readMember m (c :: (tail ++ (more ++ rest)))) d' (more ++ rest) :=
      Draft.readMember_iff.2 ⟨[], piece, Blanks.nil, hpiece, fun _ => hends, by rw [hcons]; rfl⟩
    obtain ⟨_, hvalue⟩ := hread
    have htail : Delivers (readPositional d' (index + 1) members (more ++ rest)) r rest :=
      ih hrule rfl rfl
    rw [readPositional, hfirst, hitemStart]
    simp only [within, hvalue]
    exact delivers_after.2 htail

/-! ## Rules -/

inductive SpellsRule : Rule → List Char → Prop
  | object {r : Rule} {d : Draft} {content : List Char} (h : Members true {} content d)
      (hrule : d.rule = .ok r) : SpellsRule r ('{' :: content)
  | list {r : Rule} {d : Draft} {content : List Char}
      (h : Positional true Member.all {} content d) (hrule : d.rule = .ok r) :
      SpellsRule r ('[' :: content)

theorem SpellsRule.wellformed {r : Rule} {piece : List Char} (h : SpellsRule r piece) :
    Wellformed .value piece := by
  cases h with
  | object h => exact .container (b := .object) h.wellformed
  | list h => exact .container (b := .list) h.wellformed

theorem exists_of_read {r : Rule} (h : Delivers (Rule.read s) r rest) :
    ∃ blanks piece, Blanks blanks ∧ SpellsRule r piece ∧ s = blanks ++ (piece ++ rest) := by
  unfold Rule.read at h
  split at h
  · exact absurd h not_delivers_error
  next token htoken =>
  obtain ⟨blanks, hblanks, -, hs⟩ := finds_iff.1 (finds_of_eq htoken)
  split at h
  · next hbracket =>
    obtain ⟨content, d, hmembers, hrule, hrest⟩ := members_of_readMembers (delivers_after.1 h)
    refine ⟨blanks, '{' :: content, hblanks, .object hmembers hrule, ?_⟩
    rw [hs, hbracket, hrest]
    rfl
  split at h
  · next hbracket =>
    obtain ⟨content, d, hitems, hrule, hrest⟩ := positional_of_readPositional (delivers_after.1 h)
    refine ⟨blanks, '[' :: content, hblanks, .list hitems hrule, ?_⟩
    rw [hs, hbracket, hrest]
    rfl
  · exact absurd h not_delivers_error

theorem delivers_read {r : Rule} {blanks piece : List Char} (hblanks : Blanks blanks)
    (h : SpellsRule r piece) : Delivers (Rule.read (blanks ++ (piece ++ rest))) r rest := by
  cases h with
  | @object d content h hrule =>
    have hfinds : Finds (blanks ++ ('{' :: content ++ rest)) '{' (content ++ rest) :=
      finds_iff.2 ⟨blanks, hblanks, by decide, rfl⟩
    obtain ⟨_, htoken⟩ := hfinds
    have hmembers := h.delivers_readMembers hrule (rfl : content ++ rest = _)
    rw [Rule.read, htoken]
    simp only [if_true]
    exact delivers_after.2 hmembers
  | @list d content h hrule =>
    have hfinds : Finds (blanks ++ ('[' :: content ++ rest)) '[' (content ++ rest) :=
      finds_iff.2 ⟨blanks, hblanks, by decide, rfl⟩
    obtain ⟨_, htoken⟩ := hfinds
    have hitems : Delivers (readPositional {} 0 Member.all (content ++ rest)) r rest :=
      h.delivers_readPositional hrule rfl rfl
    rw [Rule.read, htoken]
    simp only [if_neg (show ¬ '[' = '{' by decide), if_true]
    exact delivers_after.2 hitems

theorem reads_read : Reads Rule.read SpellsRule :=
  .of_parts SpellsRule.wellformed exists_of_read delivers_read

end RoutePolicy.Rule
