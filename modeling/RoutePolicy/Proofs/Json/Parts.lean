import Mathlib.Data.List.Forall2
import RoutePolicy.Json.Value
import RoutePolicy.Proofs.Json.Value
import RoutePolicy.Proofs.Text.Pieces

/-!
# Containers by their parts

A container is a bracket, parts that are led by blanks or by a comma among blanks, and the closing
bracket. Whether a part is what it should be is left to those who speak about it, so the same words
serve for lists and objects, and for containers that are read only up to a fault. The parts are
settled by the text (`Parts.unique`) as soon as the extent of each one is.
-/

namespace RoutePolicy.Json

/-! ## Laid out containers are spellings

Both layouts put nothing but blanks between the tokens of a container, so a list that was laid
out is a spelling of its items. -/

variable {α β : Type}

theorem blanks_lineStart (depth : Nat) : Blanks (Layout.lineStart depth) := by
  apply Blanks.cons
  · intro c hc
    rw [List.eq_of_mem_replicate hc]
    rfl
  · rfl

/-- A container with a part is its bracket, blanks, the first part, the others each behind a comma
and blanks, and blanks before the closing bracket. -/
theorem Layout.exists_container_eq (l : Layout) (opening closing : Char) :
    ∃ before between after, Blanks before ∧ Blanks between ∧ Blanks after ∧
      ∀ part parts, l.container opening closing (part :: parts) =
        opening :: (before ++
          (part ++ (parts.flatMap (',' :: between ++ ·) ++ (after ++ [closing])))) := by
  cases l with
  | compact =>
    refine ⟨[], [], [], Blanks.nil, Blanks.nil, Blanks.nil, fun part parts => ?_⟩
    simp only [container, Text.intercalate_cons, List.cons_append, List.append_assoc, List.nil_append]
  | indented depth =>
    refine ⟨lineStart (depth + 1), lineStart (depth + 1), lineStart depth, blanks_lineStart _,
      blanks_lineStart _, blanks_lineStart _, fun part parts => ?_⟩
    simp only [container, Text.intercalate_cons, List.cons_append, List.append_assoc]

theorem Layout.exists_colon_eq (l : Layout) : ∃ blanks, Blanks blanks ∧ l.colon = ':' :: blanks := by
  cases l with
  | compact => exact ⟨[], Blanks.nil, rfl⟩
  | indented => exact ⟨[' '], Blanks.nil.cons rfl, rfl⟩

theorem spellsList_list (l : Layout) {spells : α → List Char → Prop} {value : β → α}
    {write : β → List Char} (hspells : ∀ b, spells (value b) (write b)) (items : List β) :
    SpellsList spells (items.map value) (l.list (items.map write)) := by
  cases items with
  | nil => exact ⟨[']'], .done Blanks.nil, rfl⟩
  | cons b items =>
    obtain ⟨before, between, after, hbefore, hbetween, hafter, heq⟩ := l.exists_container_eq '[' ']'
    rw [Layout.list, List.map_cons, List.map_cons, heq]
    refine ⟨_, .item (.first hbefore) (hspells b) ?_, rfl⟩
    induction items with
    | nil => exact .done hafter
    | cons next items ih =>
      rw [List.map_cons, List.map_cons, List.flatMap_cons, List.append_assoc, List.append_assoc]
      exact .item (.next Blanks.nil hbetween) (hspells next) ih

theorem spellsList_encode (l : Layout) (texts : List String) :
    SpellsList SpellsString texts (l.list (texts.map fun text => encode text.toList)) := by
  have hencode : ∀ text : String, SpellsString (id text) (encode text.toList) :=
    fun text => spellsQuoted_encode text.toList
  have hlist := spellsList_list l hencode texts
  rwa [List.map_id] at hlist

/-! ## Parts of any text -/

variable {s rest inside more blanks : List Char} {parts : List (List Char)} {b : Bracket}
  {isFirst : Bool}

/-- Parts behind the opening bracket or behind another part, each with its lead. -/
inductive Parts : Bool → List (List Char) → List Char → Prop
  | nil {isFirst : Bool} : Parts isFirst [] []
  | cons {isFirst : Bool} {lead part more : List Char} {parts : List (List Char)}
      (hlead : Lead isFirst lead) (hmore : Parts false parts more) :
      Parts isFirst (part :: parts) (lead ++ (part ++ more))

def IsContainer (b : Bracket) (parts : List (List Char)) (s : List Char) : Prop :=
  ∃ inside blanks, Parts true parts inside ∧ Blanks blanks ∧
    s = b.opening :: (inside ++ (blanks ++ [b.closing]))

theorem Lead.ends {lead : List Char} (h : Lead false lead) : Ends (lead ++ s) := by
  cases h with
  | next hbefore =>
    rw [List.append_assoc, List.cons_append]
    exact ends_blanks_append hbefore (by decide)

theorem Parts.ends_append (h : Parts false parts more) (hs : Ends s) : Ends (more ++ s) := by
  cases h with
  | nil => exact hs
  | cons hlead =>
    rw [List.append_assoc]
    exact hlead.ends

theorem Parts.ends (h : Parts false parts more) (hblanks : Blanks blanks) :
    Ends (more ++ (blanks ++ b.closing :: rest)) :=
  h.ends_append (ends_blanks_append hblanks b.closing_mem)

/-- Parts that are followed by others. -/
theorem Parts.exists_of_append {first second : List (List Char)}
    (h : Parts isFirst (first ++ second) inside) :
    ∃ before behind, Parts isFirst first before ∧ Parts (isFirst && first.isEmpty) second behind ∧
      inside = before ++ behind := by
  induction first generalizing isFirst inside with
  | nil => exact ⟨[], inside, .nil, by rwa [List.isEmpty_nil, Bool.and_true], rfl⟩
  | cons part first ih =>
    cases h with
    | @cons _ lead _ more _ hlead hmore =>
      obtain ⟨before, behind, hbefore, hbehind, rfl⟩ := ih hmore
      refine ⟨lead ++ (part ++ before), behind, .cons hlead hbefore, ?_, ?_⟩
      · rw [List.isEmpty_cons, Bool.and_false]
        exact hbehind
      · simp only [List.append_assoc]

/-! ### One way to cut a container -/

theorem Lead.cons_inj {lead lead' s' : List Char} {c c' : Char} (h : Lead isFirst lead)
    (h' : Lead isFirst lead') (hc : isBlank c = false) (hc' : isBlank c' = false)
    (heq : lead ++ c :: s = lead' ++ c' :: s') : c = c' ∧ s = s' := by
  cases h with
  | first hblanks =>
    cases h' with
    | first hblanks' =>
      have hfinds : Finds (lead ++ c :: s) c s := finds_iff.2 ⟨lead, hblanks, hc, rfl⟩
      exact hfinds.unique (finds_iff.2 ⟨lead', hblanks', hc', heq⟩)
  | @next before after hbefore hafter =>
    cases h' with
    | @next before' after' hbefore' hafter' =>
      simp only [List.append_assoc, List.cons_append] at heq
      have hcomma : Finds (before ++ ',' :: (after ++ c :: s)) ',' (after ++ c :: s) :=
        finds_iff.2 ⟨before, hbefore, by decide, rfl⟩
      have htail : after ++ c :: s = after' ++ c' :: s' :=
        (hcomma.unique (finds_iff.2 ⟨before', hbefore', by decide, heq⟩)).2
      have hfinds : Finds (after ++ c :: s) c s := finds_iff.2 ⟨after, hafter, hc, rfl⟩
      exact hfinds.unique (finds_iff.2 ⟨after', hafter', hc', htail⟩)

theorem Lead.ne_closing {lead : List Char} {c : Char} (h : Lead isFirst lead)
    (hblanks : Blanks blanks) (hc : isBlank c = false) (hclosing : c ≠ b.closing) :
    lead ++ c :: s ≠ blanks ++ b.closing :: rest := by
  intro heq
  have hfinds : Finds (lead ++ c :: s) b.closing rest :=
    finds_iff.2 ⟨blanks, hblanks, b.closing_not_isBlank, heq⟩
  cases h with
  | first hlead => exact hclosing ((finds_iff.2 ⟨_, hlead, hc, rfl⟩).unique hfinds).1
  | @next before after hbefore hafter =>
    have hcomma : Finds (before ++ ',' :: after ++ c :: s) ',' (after ++ c :: s) := by
      refine finds_iff.2 ⟨before, hbefore, by decide, ?_⟩
      rw [List.append_assoc, List.cons_append]
    have hne : ',' ≠ b.closing := by cases b <;> decide
    exact hne (hcomma.unique hfinds).1

def HasBeginning (b : Bracket) (part : List Char) : Prop :=
  ∃ c tail, part = c :: tail ∧ isBlank c = false ∧ c ≠ b.closing

structure HasExtent (b : Bracket) (part : List Char) : Prop where
  begins : HasBeginning b part
  skip : ∀ rest, Ends rest → skipFrom (.part b) [] (part ++ rest) = .ok rest

theorem Wellformed.listPart {value : List Char} (h : Wellformed .value value) :
    Wellformed (.part .list) value := .item Blanks.nil h

theorem Wellformed.hasExtent {value : List Char} (h : Wellformed .value value) :
    HasExtent .list value where
  begins := h.exists_eq_cons
  skip := fun _ hends => h.skipFrom_value (.of_ends hends)

/-- Two containers that begin alike have the same parts, and the same text behind them. -/
theorem Parts.unique {parts' : List (List Char)} {inside' blanks' rest' : List Char}
    (h : Parts isFirst parts inside) (h' : Parts isFirst parts' inside')
    (hparts : ∀ part ∈ parts, HasExtent b part) (hparts' : ∀ part ∈ parts', HasExtent b part)
    (hblanks : Blanks blanks) (hblanks' : Blanks blanks')
    (heq : inside ++ (blanks ++ b.closing :: rest) = inside' ++ (blanks' ++ b.closing :: rest')) :
    parts = parts' ∧ rest = rest' := by
  induction h generalizing parts' inside' with
  | nil =>
    cases h' with
    | nil =>
      have hfinds := finds_iff.2 ⟨blanks, hblanks, b.closing_not_isBlank, heq.symm⟩
      have hfinds' : Finds (blanks' ++ b.closing :: rest') b.closing rest' :=
        finds_iff.2 ⟨blanks', hblanks', b.closing_not_isBlank, rfl⟩
      exact ⟨rfl, (hfinds.unique hfinds').2⟩
    | cons hlead' =>
      obtain ⟨c, tail, rfl, hc, hclosing⟩ := (hparts' _ List.mem_cons_self).begins
      simp only [List.append_assoc, List.cons_append, List.nil_append] at heq
      exact absurd heq.symm (hlead'.ne_closing hblanks hc hclosing)
  | @cons isFirst lead part more parts hlead hmore ih =>
    obtain ⟨hbegins, hskip⟩ := hparts part List.mem_cons_self
    obtain ⟨c, tail, hpart, hc, hclosing⟩ := hbegins
    cases h' with
    | nil =>
      rw [hpart] at heq
      simp only [List.append_assoc, List.cons_append, List.nil_append] at heq
      exact absurd heq (hlead.ne_closing hblanks' hc hclosing)
    | @cons _ lead' part' more' parts' hlead' hmore' =>
      obtain ⟨hbegins', hskip'⟩ := hparts' part' List.mem_cons_self
      obtain ⟨c', tail', hpart', hc', -⟩ := hbegins'
      have htext : part ++ (more ++ (blanks ++ b.closing :: rest)) =
          part' ++ (more' ++ (blanks' ++ b.closing :: rest')) := by
        simp only [hpart, hpart', List.append_assoc, List.cons_append] at heq ⊢
        obtain ⟨rfl, htail⟩ := hlead.cons_inj hlead' hc hc' heq
        rw [htail]
      have hends : Ends (more ++ (blanks ++ b.closing :: rest)) := hmore.ends hblanks
      have hrest := hskip _ hends
      rw [htext, hskip' _ (hmore'.ends hblanks')] at hrest
      have hmoreEq := Except.ok.inj hrest
      obtain rfl : part = part' := List.append_cancel_right (hmoreEq ▸ htext)
      obtain ⟨rfl, rfl⟩ := ih hmore' (fun p hp => hparts p (List.mem_cons_of_mem _ hp))
        (fun p hp => hparts' p (List.mem_cons_of_mem _ hp)) hmoreEq.symm
      exact ⟨rfl, rfl⟩

theorem IsContainer.unique {parts' : List (List Char)} {s' rest' : List Char}
    (h : IsContainer b parts s) (h' : IsContainer b parts' s')
    (hparts : ∀ part ∈ parts, HasExtent b part) (hparts' : ∀ part ∈ parts', HasExtent b part)
    (heq : s ++ rest = s' ++ rest') : parts = parts' := by
  obtain ⟨inside, blanks, hinside, hblanks, rfl⟩ := h
  obtain ⟨inside', blanks', hinside', hblanks', rfl⟩ := h'
  simp only [List.cons_append, List.append_assoc, List.nil_append, List.cons.injEq, true_and] at heq
  exact (hinside.unique hinside' hparts hparts' hblanks hblanks' heq).1

/-! ### Well-formed containers -/

theorem Parts.wellformed (h : Parts isFirst parts inside)
    (hparts : ∀ part ∈ parts, Wellformed (.part b) part) (hblanks : Blanks blanks) :
    Wellformed (formBehind b isFirst) (inside ++ (blanks ++ [b.closing])) := by
  induction h with
  | @nil isFirst =>
    cases isFirst with
    | true => exact .empty hblanks
    | false => exact .last hblanks
  | @cons isFirst lead part more parts hlead hmore ih =>
    obtain ⟨hpart, hparts⟩ := List.forall_mem_cons.1 hparts
    have hrest : Wellformed (.more b) (more ++ (blanks ++ [b.closing])) := ih hparts
    cases hlead with
    | first hlead =>
      rw [List.append_assoc, List.append_assoc, ← List.append_assoc]
      exact .parts (hpart.blanks_append hlead) hrest
    | next hbefore hafter =>
      have hnext := Wellformed.next hbefore (hpart.blanks_append hafter) hrest
      simp only [List.append_assoc, List.cons_append] at hnext ⊢
      exact hnext

theorem IsContainer.wellformed (h : IsContainer b parts s)
    (hparts : ∀ part ∈ parts, Wellformed (.part b) part) : Wellformed .value s := by
  obtain ⟨inside, blanks, hinside, hblanks, rfl⟩ := h
  exact .container (hinside.wellformed hparts hblanks)

/-- A container that was laid out is a container of its parts. -/
theorem isContainer_container (l : Layout) (b : Bracket) (parts : List (List Char)) :
    IsContainer b parts (l.container b.opening b.closing parts) := by
  cases parts with
  | nil => exact ⟨[], [], .nil, Blanks.nil, rfl⟩
  | cons part parts =>
    obtain ⟨before, between, after, hbefore, hbetween, hafter, heq⟩ :=
      l.exists_container_eq b.opening b.closing
    have hmore : Parts false parts (parts.flatMap (',' :: between ++ ·)) := by
      induction parts with
      | nil => exact .nil
      | cons next parts ih =>
        rw [List.flatMap_cons, List.append_assoc]
        exact .cons (.next Blanks.nil hbetween) ih
    refine ⟨_, after, .cons (.first hbefore) hmore, hafter, ?_⟩
    rw [heq]
    simp only [List.append_assoc]

def IsList (s : List Char) : Prop :=
  ∃ items, (∀ item ∈ items, Wellformed .value item) ∧ IsContainer .list items s

/-- What stands behind an item is cut at its commas. -/
theorem Wellformed.exists_items {form : Form} (h : Wellformed form more)
    (hform : form = .more .list) :
    ∃ items inside blanks, (∀ item ∈ items, Wellformed .value item) ∧ Parts false items inside ∧
      Blanks blanks ∧ more = inside ++ (blanks ++ [']']) := by
  induction h with
  | scalar | container | empty | parts | item | member => cases hform
  | last hblanks =>
    cases hform
    exact ⟨[], [], _, by simp, .nil, hblanks, rfl⟩
  | next hbefore hpart _ _ ih =>
    cases hform
    obtain ⟨items, inside, after, hitems, hinside, hafter, rfl⟩ := ih rfl
    cases hpart with
    | @item blanks value hblanks hvalue =>
      refine ⟨value :: items, _, after, List.forall_mem_cons.2 ⟨hvalue, hitems⟩,
        .cons (.next hbefore hblanks) hinside, hafter, ?_⟩
      simp only [List.append_assoc, List.cons_append]

/-- A value that begins as a list is one. -/
theorem Wellformed.isList {content : List Char} (h : Wellformed .value ('[' :: content)) :
    IsList ('[' :: content) := by
  generalize hvalue : '[' :: content = value at h
  cases h with
  | scalar h =>
    obtain ⟨c, tail, rfl, hc⟩ := h.exists_eq_cons
    obtain rfl := (List.cons.inj hvalue).1
    exact absurd hc.not_mem (by decide)
  | @container b content h =>
    cases b with
    | object => exact absurd (List.cons.inj hvalue).1 (by decide)
    | list =>
      cases h with
      | empty hblanks => exact ⟨[], by simp, [], _, .nil, hblanks, rfl⟩
      | parts hpart hmore =>
        obtain ⟨items, inside, after, hitems, hinside, hafter, rfl⟩ := hmore.exists_items rfl
        cases hpart with
        | @item blanks value hblanks hitem =>
          refine ⟨value :: items, List.forall_mem_cons.2 ⟨hitem, hitems⟩, blanks ++ (value ++ inside),
            after, .cons (.first hblanks) hinside, hafter, ?_⟩
          simp only [Bracket.opening, Bracket.closing, List.append_assoc]

/-! ### Lists -/

variable {spells : α → List Char → Prop}

theorem spellsItems_iff {items : List α} {content : List Char} :
    SpellsItems spells isFirst items content ↔
      ∃ parts inside blanks, List.Forall₂ spells items parts ∧ Parts isFirst parts inside ∧
        Blanks blanks ∧ content = inside ++ (blanks ++ [']']) := by
  constructor
  · intro h
    induction h with
    | done hblanks => exact ⟨[], [], _, .nil, .nil, hblanks, rfl⟩
    | @item isFirst lead piece more a as hlead hpiece _ ih =>
      obtain ⟨parts, inside, blanks, hparts, hinside, hblanks, rfl⟩ := ih
      refine ⟨piece :: parts, _, blanks, .cons hpiece hparts, .cons hlead hinside, hblanks, ?_⟩
      simp only [List.append_assoc]
  · intro h
    obtain ⟨parts, inside, blanks, hparts, hinside, hblanks, rfl⟩ := h
    induction hinside generalizing items with
    | nil =>
      cases hparts
      exact .done hblanks
    | cons hlead _ ih =>
      cases hparts with
      | cons hpiece hparts =>
        rw [List.append_assoc, List.append_assoc]
        exact .item hlead hpiece (ih hparts)

/-- A list is spelled by spelling its items. -/
theorem spellsList_iff {items : List α} {piece : List Char} :
    SpellsList spells items piece ↔
      ∃ parts, List.Forall₂ spells items parts ∧ IsContainer .list parts piece := by
  constructor
  · intro h
    obtain ⟨content, hcontent, rfl⟩ := h
    obtain ⟨parts, inside, blanks, hparts, hinside, hblanks, rfl⟩ := spellsItems_iff.1 hcontent
    exact ⟨parts, hparts, inside, blanks, hinside, hblanks, rfl⟩
  · intro h
    obtain ⟨parts, hparts, inside, blanks, hinside, hblanks, rfl⟩ := h
    exact ⟨_, spellsItems_iff.2 ⟨parts, inside, blanks, hparts, hinside, hblanks, rfl⟩, rfl⟩

end RoutePolicy.Json
