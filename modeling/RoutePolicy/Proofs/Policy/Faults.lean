import RoutePolicy.Proofs.Decimal.Digits
import RoutePolicy.Proofs.Policy.Entries

/-!
# Where a policy is at fault

The failure of a policy tells the place of the value at fault: the number of the rule, the key of
the member and, within a list of roles, the number of the item. The rules before the fault are only
counted, the members before it do not matter, and what follows it is not looked at.
-/

namespace RoutePolicy.Policy

open Json
open Rule (SpellsRule IsObject GoesOnWith Tells Entry Member keys)

variable {text : String} {rules : List Rule} {done others : List (List Char)} {object : List Char}
  {trail : List Step}

/-- The text is refused, and the message begins with the place. -/
def FaultsAt (text place : String) : Prop :=
  ∃ e detail, ofJson text = .error e ∧ e.kind = .json ∧
    e.message = "json error: at `" ++ place ++ "`: " ++ detail

theorem faultsAt_of_failsAt (h : FailsAt trail (Policy.read text.toList)) :
    FaultsAt text (trailText trail) := by
  obtain ⟨f, hf, rfl⟩ := h
  have hread : ofJson text = .error (failureOf text.toList f) := by
    unfold ofJson
    rw [hf]
  have hmessage : (failureOf text.toList f).message =
      "json error: at `" ++ trailText f.trail ++ "`: " ++ f.report text.toList := by
    have hhead : "json error: at `" = "json error: " ++ "at `" := by decide
    unfold failureOf Failure.message
    rw [hhead]
    simp only [String.append_assoc]
  have hkind : (failureOf text.toList f).kind = .json := by
    rw [failureOf, Failure.kind]
  exact ⟨_, _, hread, hkind, hmessage⟩

/-- The fault of a rule is told with the number of the rules before it. -/
theorem failsAt_of_lists (h : Lists text (done ++ object :: others))
    (hrules : List.Forall₂ SpellsRule rules done) (hobject : HasBeginning .list object)
    (hfault : ∀ rest, FailsAt trail (Rule.read (object ++ rest))) :
    FailsAt (.item done.length :: trail) (Policy.read text.toList) := by
  obtain ⟨blanks, list, rest, hblanks, hlist, htext⟩ := h
  exact failsAt_readList Rule.reads_read hrules hlist hobject (fun tail _ => hfault tail) hblanks
    htext

/-- The trail of a fault as text: a number in brackets, a key behind a point. -/
theorem trailText_item (index : Nat) (trail : List Step) :
    trailText (.item index :: trail) =
      "[" ++ toString index ++ "]" ++ String.ofList (trail.flatMap (Step.text false)) := by
  rw [← Decimal.ofList_digits, trailText]
  apply String.toList_inj.1
  simp [Step.text]

theorem trailText_item_member (index : Nat) (name : List Char) :
    trailText [.item index, .member name] =
      "[" ++ toString index ++ "]." ++ String.ofList name := by
  rw [trailText_item]
  apply String.toList_inj.1
  simp [Step.text]

theorem trailText_item_member_item (index inner : Nat) (name : List Char) :
    trailText [.item index, .member name, .item inner] =
      "[" ++ toString index ++ "]." ++ String.ofList name ++ "[" ++ toString inner ++ "]" := by
  rw [trailText_item, ← Decimal.ofList_digits inner]
  apply String.toList_inj.1
  simp [Step.text]

theorem hasBeginning_of_isContainer {parts : List (List Char)}
    (h : IsContainer .object parts object) : HasBeginning .list object := by
  obtain ⟨_, _, _, _, rfl⟩ := h
  exact ⟨'{', _, rfl, by decide, by decide⟩

/-- A policy is refused with the place of the first value that does not fit: behind rules that are
read and entries that tell members of a rule, this is the value of a member, an item of a list of
roles, or a rule that lacks a member. -/
theorem ofJson_faultsAt {r : Rule} {before : List Entry}
    (h : Lists text (done ++ object :: others)) (hrules : List.Forall₂ SpellsRule rules done)
    (htells : Tells r before) :
    (∀ (m : Member) (value : List Char), m.name ∉ keys before →
      GoesOnWith before ⟨m.name, value⟩ object → Wellformed .value value →
      ((∀ r, ¬ m.Spells r value) → (m ∈ Member.roleLists → ¬ IsList value) →
        FaultsAt text ("[" ++ toString done.length ++ "]." ++ String.ofList m.name)) ∧
      ∀ (roles : List String) (good more : List (List Char)) (bad : List Char),
        m ∈ Member.roleLists → List.Forall₂ SpellsString roles good → Wellformed .value bad →
        (∀ role, ¬ SpellsString role bad) → IsContainer .list (good ++ bad :: more) value →
        FaultsAt text ("[" ++ toString done.length ++ "]." ++ String.ofList m.name ++ "[" ++
          toString good.length ++ "]")) ∧
    (IsObject before object → (∃ m ∈ Member.required, m.name ∉ keys before) →
      FaultsAt text ("[" ++ toString done.length ++ "]")) := by
  constructor
  · intro m value hnew hobject hvalue
    have hbegins : HasBeginning .list object := by
      obtain ⟨_, _, _, _, _, hcontainer⟩ := hobject
      exact hasBeginning_of_isContainer hcontainer
    constructor
    · intro hmisfit hlist
      have hmember := Rule.failsAt_read_entry htells hnew hobject fun d _ _ hblanks hends =>
        d.failsAt_readMember hblanks hvalue hends hmisfit hlist
      rw [← trailText_item_member]
      exact faultsAt_of_failsAt (failsAt_of_lists h hrules hbegins hmember)
    · intro roles good more bad hm hgood hbad hmisfit hlist
      have hmember := Rule.failsAt_read_entry htells hnew hobject fun d _ rest hblanks _ =>
        d.failsAt_readMember_item hm hblanks hlist hgood hbad hmisfit rest
      rw [← trailText_item_member_item]
      exact faultsAt_of_failsAt (failsAt_of_lists h hrules hbegins hmember)
  · intro hobject hmissing
    obtain ⟨m, hm, hmissing⟩ := hmissing
    have hbegins : HasBeginning .list object := by
      obtain ⟨_, _, hcontainer⟩ := hobject
      exact hasBeginning_of_isContainer hcontainer
    have hmember := Rule.failsAt_read_missing htells hobject hm hmissing
    have hfaults := faultsAt_of_failsAt (failsAt_of_lists h hrules hbegins hmember)
    rw [trailText_item, List.flatMap_nil] at hfaults
    rwa [show String.ofList [] = "" from rfl, String.append_empty] at hfaults

/-- Faults in a second rule: a value, an item of a list, and a rule that ends too early. -/
theorem ofJson_faultsAt_second_rule :
    FaultsAt ("[" ++ Rule.toJson {} ++ ",\x7b\"note\":null,\"method\":5\x7d]") "[1].method" ∧
      FaultsAt ("[" ++ Rule.toJson {} ++ ",\x7b\"note\":null,\"authorized_roles\":[\"a\",5]\x7d]")
        "[1].authorized_roles[1]" ∧
      FaultsAt ("[" ++ Rule.toJson {} ++ ",\x7b\"note\":null\x7d]") "[1]" := by
  let note : Entry := ⟨"note".toList, "null".toList⟩
  let roles : List Char := Layout.list .compact [encode "a".toList, ['5']]
  have hrules : List.Forall₂ SpellsRule [{}] [Rule.write .compact {}] :=
    .cons (Rule.spellsRule_write .compact {}) .nil
  have hnote : ∀ m : Member, m.name ≠ "note".toList := by
    intro m
    cases m <;> decide
  have htells : Tells {} [note] := .cons_other (.nil {}) hnote (.scalar .null)
  have hfive : Wellformed .value ['5'] :=
    .scalar (.number (.plain ⟨['5'], [], [], .other rfl (by decide) Digits.nil, .none, .none, rfl⟩))
  have hmisfit : ∀ value, ¬ SpellsString value ['5'] := by
    intro value hspells
    obtain ⟨_, _, h⟩ := hspells
    exact absurd (List.cons.inj h).1 (by decide)
  have hroles : IsContainer .list ([encode "a".toList] ++ ['5'] :: []) roles :=
    isContainer_container .compact .list _
  have hrolesValue : Wellformed .value roles := by
    have hname : Wellformed .value (encode "a".toList) :=
      .scalar (.text (spellsQuoted_encode _).isQuoted)
    exact hroles.wellformed
      (List.forall_mem_cons.2 ⟨hname.listPart, List.forall_mem_singleton.2 hfive.listPart⟩)
  have hlists : ∀ {object : List Char} {tail : String}, tail.toList = ',' :: (object ++ [']']) →
      Lists ("[" ++ Rule.toJson {} ++ tail) ([Rule.write .compact {}] ++ object :: []) := by
    intro object tail htail
    refine ⟨[], _, [], Blanks.nil, isContainer_container .compact .list _, ?_⟩
    rw [String.toList_append, String.toList_append, Rule.toJson, String.toList_ofList, htail]
    simp [Layout.container, Bracket.opening, Bracket.closing, List.intercalate]
  refine ⟨?_, ?_, ?_⟩
  · have hobject := Rule.isObject_object .compact ([note] ++ ⟨Member.method.name, ['5']⟩ :: [])
    exact ((ofJson_faultsAt (hlists (by decide)) hrules htells).1 .method ['5'] (by decide)
      hobject.goesOnWith hfive).1 (fun r => hmisfit r.method) fun h => absurd h (by decide)
  · have hobject :=
      Rule.isObject_object .compact ([note] ++ ⟨Member.authorizedRoles.name, roles⟩ :: [])
    exact ((ofJson_faultsAt (hlists (by decide)) hrules htells).1 .authorizedRoles roles (by decide)
      hobject.goesOnWith hrolesValue).2 ["a"] [encode "a".toList] [] ['5'] (by decide)
      (.cons (spellsQuoted_encode _) .nil) hfive hmisfit hroles
  · have hobject := Rule.isObject_object .compact [note]
    exact (ofJson_faultsAt (hlists (by decide)) hrules htells).2 hobject ⟨.id, by decide, by decide⟩

end RoutePolicy.Policy
