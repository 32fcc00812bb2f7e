import RoutePolicy.Proofs.Json.Parts
import RoutePolicy.Proofs.Rule.Reader

/-!
# Objects that describe a rule

An object is told by its entries, the keys with their values; neither the blanks nor the way in
which a key is spelled matter. Entries describe a rule if each member of the rule has at most one of
them, and if a member that has none is at its default; what stands under other keys is of no
interest (`Describes`). In whatever order the entries come, a draft gathers the same members from
them (`Tells.gathers`), so an object that describes a rule is a spelling of it.
-/

namespace RoutePolicy.Rule

open Json

variable {r : Rule}

/-! ## Entries -/

structure Entry where
  name : List Char
  value : List Char

def keys (entries : List Entry) : List (List Char) := entries.map Entry.name

variable {e : Entry} {entries : List Entry} {parts : List (List Char)}

theorem mem_keys_cons {name : List Char} :
    name ∈ keys (e :: entries) ↔ name = e.name ∨ name ∈ keys entries := List.mem_cons

/-- The text spells the entry: its key, a colon among blanks, and its value. -/
def SpellsEntry (e : Entry) (part : List Char) : Prop :=
  ∃ key blanks blanks', SpellsQuoted e.name key ∧ Blanks blanks ∧ Blanks blanks' ∧
    part = key ++ (blanks ++ ':' :: (blanks' ++ e.value))

def IsObject (entries : List Entry) (s : List Char) : Prop :=
  ∃ parts, List.Forall₂ SpellsEntry entries parts ∧ IsContainer .object parts s

theorem SpellsEntry.wellformed {part : List Char} (h : SpellsEntry e part)
    (hvalue : Wellformed .value e.value) : Wellformed (.part .object) part := by
  obtain ⟨key, before, after, hkey, hbefore, hafter, rfl⟩ := h
  exact .member Blanks.nil hkey.isQuoted hbefore (.item hafter hvalue)

theorem wellformed_of_spellsEntry (h : List.Forall₂ SpellsEntry entries parts)
    (hvalues : ∀ e ∈ entries, Wellformed .value e.value) :
    ∀ part ∈ parts, Wellformed (.part .object) part := by
  induction h with
  | nil => exact fun _ h => absurd h List.not_mem_nil
  | cons hpart _ ih =>
    obtain ⟨hvalue, hvalues⟩ := List.forall_mem_cons.1 hvalues
    exact List.forall_mem_cons.2 ⟨hpart.wellformed hvalue, ih hvalues⟩

/-- An object is a well-formed value if the values of its entries are. -/
theorem IsObject.wellformed {s : List Char} (h : IsObject entries s)
    (hvalues : ∀ e ∈ entries, Wellformed .value e.value) : Wellformed .value s := by
  obtain ⟨parts, hparts, hcontainer⟩ := h
  exact hcontainer.wellformed (wellformed_of_spellsEntry hparts hvalues)

/-- An object that was laid out is an object of its members. -/
theorem isObject_object (l : Layout) (entries : List Entry) :
    IsObject entries (l.object (entries.map fun e => (e.name, e.value))) := by
  refine ⟨_, ?_, isContainer_container l .object _⟩
  rw [List.map_map, List.forall₂_map_right_iff, List.forall₂_same]
  intro e _
  obtain ⟨blanks, hblanks, hcolon⟩ := l.exists_colon_eq
  refine ⟨encode e.name, [], blanks, spellsQuoted_encode e.name, Blanks.nil, hblanks, ?_⟩
  simp only [Function.comp_apply, hcolon, List.append_assoc, List.cons_append, List.nil_append]

/-! ## Descriptions -/

namespace Member

/-- The members that no rule goes without. -/
def required : List Member := [.id, .host, .path, .method]

def roleLists : List Member := [.authorizedRoles, .forbiddenRoles]

/-- The text spells what the rule has for the member. -/
def Spells (r : Rule) (m : Member) (value : List Char) : Prop :=
  match m with
  | .id => SpellsInt64 r.id value
  | .host => SpellsString r.host value
  | .path => SpellsString r.path value
  | .method => SpellsString r.method value
  | .authorizedRoles => SpellsList SpellsString r.authorizedRoles value
  | .forbiddenRoles => SpellsList SpellsString r.forbiddenRoles value
  | .allowAnyone => SpellsBoolean r.allowAnyone value

end Member

/-- The entries tell members of the rule, each one at most once, and what stands under other keys is
well-formed. -/
structure Tells (r : Rule) (entries : List Entry) : Prop where
  spells : ∀ e ∈ entries, ∀ m : Member, m.name = e.name → m.Spells r e.value
  once : ∀ m : Member, (keys entries).count m.name ≤ 1
  others : ∀ e ∈ entries, (∀ m : Member, m.name ≠ e.name) → Wellformed .value e.value

/-- The entries tell every member of the rule but those that are at their defaults. -/
structure Describes (r : Rule) (entries : List Entry) : Prop extends Tells r entries where
  required : ∀ m ∈ Member.required, m.name ∈ keys entries
  authorizedRoles : Member.authorizedRoles.name ∉ keys entries → r.authorizedRoles = []
  forbiddenRoles : Member.forbiddenRoles.name ∉ keys entries → r.forbiddenRoles = []
  allowAnyone : Member.allowAnyone.name ∉ keys entries → r.allowAnyone = false

theorem Tells.nil (r : Rule) : Tells r [] where
  spells := fun _ h => absurd h List.not_mem_nil
  once := fun _ => Nat.zero_le 1
  others := fun _ h => absurd h List.not_mem_nil

theorem Tells.cons {m : Member} {value : List Char} (h : Tells r entries)
    (hnew : m.name ∉ keys entries) (hvalue : m.Spells r value) :
    Tells r (⟨m.name, value⟩ :: entries) where
  spells := by
    refine List.forall_mem_cons.2 ⟨fun m' hm' => ?_, h.spells⟩
    rw [Member.name_inj.1 hm']
    exact hvalue
  once := by
    intro m'
    rw [keys, List.map_cons, List.count_cons, ← keys]
    by_cases hm' : m.name = m'.name
    · have hzero : (keys entries).count m.name = 0 := List.count_eq_zero.2 hnew
      rw [← hm', beq_self_eq_true, if_pos rfl]
      omega
    · rw [if_neg (by simpa using hm')]
      exact h.once m'
  others := List.forall_mem_cons.2 ⟨fun hother => absurd rfl (hother m), h.others⟩

theorem Tells.cons_other (h : Tells r entries) (hother : ∀ m : Member, m.name ≠ e.name)
    (hvalue : Wellformed .value e.value) : Tells r (e :: entries) where
  spells := List.forall_mem_cons.2 ⟨fun m hm => absurd hm (hother m), h.spells⟩
  once := by
    intro m
    rw [keys, List.map_cons, List.count_cons_of_ne (hother m).symm]
    exact h.once m
  others := List.forall_mem_cons.2 ⟨fun _ => hvalue, h.others⟩

theorem Tells.tail (h : Tells r (e :: entries)) : Tells r entries where
  spells := fun e' he => h.spells e' (List.mem_cons_of_mem e he)
  once := fun m => Nat.le_trans List.count_le_count_cons (h.once m)
  others := fun e' he => h.others e' (List.mem_cons_of_mem e he)

/-- A member that the first entry tells is told by no other. -/
theorem Tells.not_mem_tail (h : Tells r (e :: entries)) {m : Member} (hm : m.name = e.name) :
    m.name ∉ keys entries := by
  have honce := h.once m
  rw [keys, List.map_cons, hm, List.count_cons_self] at honce
  rw [hm]
  exact List.count_eq_zero.1 (Nat.le_zero.1 (Nat.le_of_succ_le_succ honce))

/-! ## What a draft gathers -/

namespace Draft

/-- The draft that has the given members of a rule. -/
def of (r : Rule) (known : Member → Bool) : Draft where
  id := if known .id then some r.id else none
  host := if known .host then some r.host else none
  path := if known .path then some r.path else none
  method := if known .method then some r.method else none
  authorizedRoles := if known .authorizedRoles then some r.authorizedRoles else none
  forbiddenRoles := if known .forbiddenRoles then some r.forbiddenRoles else none
  allowAnyone := if known .allowAnyone then some r.allowAnyone else none

theorem has_of (r : Rule) (known : Member → Bool) (m : Member) : (of r known).has m = known m := by
  have hite : ∀ {α : Type} (b : Bool) (a : α), (if b = true then some a else none).isSome = b := by
    intro α b a
    cases b <;> rfl
  cases m <;> exact hite _ _

theorem has_of_keys (r : Rule) {m : Member} (h : m.name ∉ keys entries) :
    (of r fun m => decide (m.name ∈ keys entries)).has m = false :=
  (has_of r _ m).trans (decide_eq_false h)

theorem has_empty (m : Member) : ({} : Draft).has m = false := by
  cases m <;> rfl

def fill (r : Rule) (d : Draft) : Member → Draft
  | .id => { d with id := some r.id }
  | .host => { d with host := some r.host }
  | .path => { d with path := some r.path }
  | .method => { d with method := some r.method }
  | .authorizedRoles => { d with authorizedRoles := some r.authorizedRoles }
  | .forbiddenRoles => { d with forbiddenRoles := some r.forbiddenRoles }
  | .allowAnyone => { d with allowAnyone := some r.allowAnyone }

theorem fill_of (r : Rule) (known : Member → Bool) (m : Member) :
    (of r known).fill r m = of r fun m' => known m' || decide (m' = m) := by
  cases m <;> simp [fill, of]

theorem takes_of_spells {m : Member} {value : List Char} (h : m.Spells r value) (d : Draft) :
    d.Takes m value (d.fill r m) := by
  cases m with
  | id | host | path | method | authorizedRoles | forbiddenRoles | allowAnyone => exact ⟨_, h, rfl⟩

theorem exists_spells_of_takes {d d' : Draft} {m : Member} {value : List Char}
    (h : d.Takes m value d') : ∃ r, m.Spells r value := by
  cases m with
  | id => exact h.elim fun v hv => ⟨{ id := v }, hv.1⟩
  | host => exact h.elim fun v hv => ⟨{ host := v }, hv.1⟩
  | path => exact h.elim fun v hv => ⟨{ path := v }, hv.1⟩
  | method => exact h.elim fun v hv => ⟨{ method := v }, hv.1⟩
  | authorizedRoles => exact h.elim fun v hv => ⟨{ authorizedRoles := v }, hv.1⟩
  | forbiddenRoles => exact h.elim fun v hv => ⟨{ forbiddenRoles := v }, hv.1⟩
  | allowAnyone => exact h.elim fun v hv => ⟨{ allowAnyone := v }, hv.1⟩

/-- The entries lead from one draft to the other. -/
inductive Gathers : Draft → List Entry → Draft → Prop
  | nil {d : Draft} : Gathers d [] d
  | cons {d d' d'' : Draft} {e : Entry} {entries : List Entry}
      (hentry : d.TakesKey e.name e.value d') (hmore : Gathers d' entries d'') :
      Gathers d (e :: entries) d''

theorem TakesKey.blanks_append {d d' : Draft} {key part blanks : List Char}
    (h : d.TakesKey key part d') (hblanks : Blanks blanks) :
    d.TakesKey key (blanks ++ part) d' := by
  unfold TakesKey at h ⊢
  split at h
  · obtain ⟨hnew, blanks', piece, hblanks', hpiece, rfl⟩ := h
    refine ⟨hnew, blanks ++ blanks', piece, hblanks.append hblanks', hpiece, ?_⟩
    rw [List.append_assoc]
  · exact ⟨h.1.blanks_append hblanks, h.2⟩

theorem takesKey_of {known : Member → Bool} (h : Tells r (e :: entries))
    (hnew : ∀ m : Member, m.name = e.name → known m = false) :
    (of r known).TakesKey e.name e.value (of r fun m => known m || decide (m.name = e.name)) := by
  unfold TakesKey
  cases hname : Member.ofName? e.name with
  | some m =>
    have hm := Member.ofName?_eq_some_iff.1 hname
    have htakes := takes_of_spells (h.spells e List.mem_cons_self m hm) (of r known)
    simp only [fill_of, ← Member.name_inj, hm] at htakes
    exact ⟨(has_of r known m).trans (hnew m hm), [], e.value, Blanks.nil, htakes, rfl⟩
  | none =>
    have hother := Member.ofName?_eq_none_iff.1 hname
    simp only [hother, decide_false, Bool.or_false]
    exact ⟨(h.others e List.mem_cons_self hother).listPart, trivial⟩

/-- Entries that tell members which a draft lacks fill it with them, in whatever order they come. -/
theorem gathers_of {known : Member → Bool} (h : Tells r entries)
    (hnew : ∀ m : Member, m.name ∈ keys entries → known m = false) :
    Gathers (of r known) entries (of r fun m => known m || decide (m.name ∈ keys entries)) := by
  induction entries generalizing known with
  | nil =>
    simp only [keys, List.map_nil, List.not_mem_nil, decide_false, Bool.or_false]
    exact .nil
  | cons e entries ih =>
    have htakes := takesKey_of h fun m hm => hnew m (mem_keys_cons.2 (.inl hm))
    -- The member of the first entry is known from now on, and no other entry tells it.
    have hnewMore : ∀ m : Member, m.name ∈ keys entries →
        (known m || decide (m.name = e.name)) = false := by
      intro m hm
      have hne : m.name ≠ e.name := fun heq => h.not_mem_tail heq hm
      rw [hnew m (mem_keys_cons.2 (.inr hm)), decide_eq_false hne]
      rfl
    have hmore := ih h.tail hnewMore
    simp only [Bool.or_assoc, ← Bool.decide_or, ← mem_keys_cons] at hmore
    exact .cons htakes hmore

theorem rule_of {known : Member → Bool} (hrequired : ∀ m ∈ Member.required, known m = true)
    (hauthorized : known .authorizedRoles = false → r.authorizedRoles = [])
    (hforbidden : known .forbiddenRoles = false → r.forbiddenRoles = [])
    (hallow : known .allowAnyone = false → r.allowAnyone = false) :
    (of r known).rule = .ok r.published := by
  have hid := hrequired .id (by decide)
  have hhost := hrequired .host (by decide)
  have hpath := hrequired .path (by decide)
  have hmethod := hrequired .method (by decide)
  have hget : ∀ {α : Type} {b : Bool} {a default : α}, (b = false → a = default) →
      (if b = true then some a else none).getD default = a := by
    intro α b a default h
    cases b with
    | true => rfl
    | false => exact (h rfl).symm
  simp only [rule, of, hid, hhost, hpath, hmethod, if_true, hget hauthorized, hget hforbidden,
    hget hallow]
  rfl

end Draft

/-- Entries that tell members of a rule are gathered by the empty draft. -/
theorem Tells.gathers (h : Tells r entries) :
    Draft.Gathers {} entries (.of r fun m => decide (m.name ∈ keys entries)) := by
  have hgathers : Draft.Gathers (.of r fun _ => false) entries _ := Draft.gathers_of h fun _ _ => rfl
  simp only [Bool.false_or] at hgathers
  exact hgathers

/-! ## Objects -/

theorem Draft.Gathers.members {d d' : Draft} {isFirst : Bool} {inside blanks : List Char}
    (h : Gathers d entries d') (hparts : Parts isFirst parts inside)
    (hspells : List.Forall₂ SpellsEntry entries parts) (hblanks : Blanks blanks) :
    Members isFirst d (inside ++ (blanks ++ ['}'])) d' := by
  induction h generalizing isFirst parts inside with
  | nil =>
    cases hspells
    cases hparts
    exact .done hblanks
  | cons hentry _ ih =>
    cases hspells with
    | cons hpart hspells =>
      obtain ⟨key, before, after, hkey, hbefore, hafter, rfl⟩ := hpart
      cases hparts with
      | cons hlead hparts =>
        have hmember := Members.member hlead hkey hbefore (hentry.blanks_append hafter)
          (ih hparts hspells)
        simp only [List.append_assoc, List.cons_append] at hmember ⊢
        exact hmember

/-- An object whose entries describe a rule spells the rule without its working fields. -/
theorem Describes.spellsRule {object : List Char} (h : Describes r entries)
    (hobject : IsObject entries object) : SpellsRule r.published object := by
  obtain ⟨parts, hparts, inside, blanks, hinside, hblanks, rfl⟩ := hobject
  refine .object (h.toTells.gathers.members hinside hparts hblanks) (Draft.rule_of ?_ ?_ ?_ ?_)
  · intro m hm
    exact decide_eq_true (h.required m hm)
  · exact fun habsent => h.authorizedRoles (of_decide_eq_false habsent)
  · exact fun habsent => h.forbiddenRoles (of_decide_eq_false habsent)
  · exact fun habsent => h.allowAnyone (of_decide_eq_false habsent)

/-! ## The written form of a rule

A rule is written as an object of all its members, which describes the rule, so that it spells
the rule without its working fields. -/

theorem Member.spells_written (l : Layout) (r : Rule) (m : Member) :
    m.Spells r (m.written l r) := by
  cases m with
  | id => exact spellsInt64_ofInt r.id
  | host => exact spellsQuoted_encode _
  | path => exact spellsQuoted_encode _
  | method => exact spellsQuoted_encode _
  | authorizedRoles => exact spellsList_encode l r.authorizedRoles
  | forbiddenRoles => exact spellsList_encode l r.forbiddenRoles
  | allowAnyone => rfl

def writtenEntries (l : Layout) (r : Rule) : List Entry :=
  Member.all.map fun m => ⟨m.name, m.written l r⟩

theorem keys_writtenEntries (l : Layout) (r : Rule) :
    keys (writtenEntries l r) = Member.all.map Member.name := by
  rw [keys, writtenEntries, List.map_map]
  rfl

theorem mem_keys_writtenEntries (l : Layout) (r : Rule) (m : Member) :
    m.name ∈ keys (writtenEntries l r) := by
  rw [keys_writtenEntries]
  cases m <;> decide

theorem describes_written (l : Layout) (r : Rule) : Describes r (writtenEntries l r) where
  spells := by
    intro e he m hm
    obtain ⟨m', -, rfl⟩ := List.mem_map.1 he
    rw [Member.name_inj.1 hm]
    exact m'.spells_written l r
  once := by
    intro m
    rw [keys_writtenEntries]
    exact List.nodup_iff_count.1 (by decide) m.name
  others := by
    intro e he hother
    obtain ⟨m, -, rfl⟩ := List.mem_map.1 he
    exact absurd rfl (hother m)
  required := fun m _ => mem_keys_writtenEntries l r m
  authorizedRoles := fun h => absurd (mem_keys_writtenEntries l r _) h
  forbiddenRoles := fun h => absurd (mem_keys_writtenEntries l r _) h
  allowAnyone := fun h => absurd (mem_keys_writtenEntries l r _) h

theorem spellsRule_write (l : Layout) (r : Rule) : SpellsRule r.published (r.write l) := by
  have hobject := isObject_object l (writtenEntries l.inner r)
  rw [writtenEntries, List.map_map] at hobject
  exact (describes_written l.inner r).spellsRule hobject

end RoutePolicy.Rule
