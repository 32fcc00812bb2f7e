import RoutePolicy.Proofs.Json.Grammar
import RoutePolicy.Proofs.Json.Integer

/-!
# Spellings of values

A typed reader accepts the spellings of its values behind any blanks, takes nothing more than the
spelling, and accepts nothing else: `Reads`. Every spelling is a well-formed value.
-/

namespace RoutePolicy.Json

open Text (Read Delivers delivers_of_eq delivers_ok not_delivers_error delivers_after)

variable {α : Type} {s rest : List Char}

/-- The reader accepts exactly the given spellings behind blanks, whatever follows. -/
structure Reads (read : (s : List Char) → Except Fault (Read α s)) (spells : α → List Char → Prop) :
    Prop where
  wellformed : ∀ {a piece}, spells a piece → Wellformed .value piece
  delivers_iff : ∀ {s a rest}, Delivers (read s) a rest ↔
    ∃ blanks piece, Blanks blanks ∧ spells a piece ∧ s = blanks ++ (piece ++ rest)

theorem Reads.of_parts {read : (s : List Char) → Except Fault (Read α s)}
    {spells : α → List Char → Prop} (wellformed : ∀ {a piece}, spells a piece → Wellformed .value piece)
    (sound : ∀ {s a rest}, Delivers (read s) a rest →
      ∃ blanks piece, Blanks blanks ∧ spells a piece ∧ s = blanks ++ (piece ++ rest))
    (complete : ∀ {a rest blanks piece}, Blanks blanks → spells a piece →
      Delivers (read (blanks ++ (piece ++ rest))) a rest) : Reads read spells where
  wellformed := wellformed
  delivers_iff := by
    intro s a rest
    refine ⟨sound, ?_⟩
    rintro ⟨blanks, piece, hblanks, hpiece, rfl⟩
    exact complete hblanks hpiece

theorem within_eq_ok {step : Step} {result : Except Fault α} {a : α} :
    within step result = .ok a ↔ result = .ok a := by
  cases result with
  | error f => exact iff_of_false (by simp [within]) (by simp)
  | ok r => exact Iff.rfl

theorem delivers_within {step : Step} {result : Except Fault (Read α s)} {a : α} :
    Delivers (within step result) a rest ↔ Delivers result a rest := by
  cases result with
  | error f => exact iff_of_false not_delivers_error not_delivers_error
  | ok r => exact Iff.rfl

/-! ## Integers, texts and truth values -/

theorem SpellsInt64.wellformed {i : Int64} {piece : List Char} (h : SpellsInt64 i piece) :
    Wellformed .value piece := by
  have hmagnitude : ∀ {whole}, Whole whole → Magnitude whole :=
    fun hwhole => ⟨_, [], [], hwhole, .none, .none, (List.append_nil _).symm⟩
  cases h with
  | natural hwhole => exact .scalar (.number (.plain (hmagnitude hwhole)))
  | negative hwhole => exact .scalar (.number (.negative (hmagnitude hwhole)))

def SpellsString (value : String) (piece : List Char) : Prop := SpellsQuoted value.toList piece

theorem exists_of_readString {value : String} (h : Delivers (readString s) value rest) :
    ∃ blanks piece, Blanks blanks ∧ SpellsString value piece ∧ s = blanks ++ (piece ++ rest) := by
  unfold readString at h
  split at h
  · exact absurd h not_delivers_error
  next token htoken =>
  split at h
  · next hquote =>
    obtain ⟨blanks, hblanks, -, hs⟩ := finds_iff.1 (finds_of_eq htoken)
    have hmap : (readText token.rest).map (fun r => token.after (r.map String.ofList)) =
        ((readText token.rest).map (·.map String.ofList)).map token.after := by
      cases readText token.rest <;> rfl
    rw [hmap, delivers_after, Text.delivers_map] at h
    obtain ⟨text, htext, rfl⟩ := h
    obtain ⟨content, hcontent, hrest⟩ := readText_iff.1 htext
    refine ⟨blanks, '"' :: (content ++ ['"']), hblanks, ⟨content, ?_, rfl⟩, ?_⟩
    · rw [String.toList_ofList]
      exact hcontent
    · rw [hs, hquote, hrest]
      simp only [List.cons_append, List.append_assoc, List.nil_append]
  · exact absurd h not_delivers_error

theorem delivers_readString {value : String} {blanks piece : List Char} (hblanks : Blanks blanks)
    (h : SpellsString value piece) : Delivers (readString (blanks ++ (piece ++ rest))) value rest := by
  obtain ⟨content, hcontent, rfl⟩ := h
  have hfinds : Finds (blanks ++ ('"' :: (content ++ ['"']) ++ rest)) '"'
      (content ++ '"' :: rest) := by
    refine finds_iff.2 ⟨blanks, hblanks, by decide, ?_⟩
    simp only [List.cons_append, List.append_assoc, List.nil_append]
  obtain ⟨_, htoken⟩ := hfinds
  obtain ⟨_, htext⟩ := readText_iff.2 ⟨content, hcontent, (rfl : content ++ '"' :: rest = _)⟩
  rw [readString, htoken]
  simp only [if_true, htext]
  exact delivers_ok.2 ⟨String.ofList_toList, rfl⟩

theorem reads_readString : Reads readString SpellsString :=
  .of_parts (fun h => .scalar (.text (SpellsQuoted.isQuoted h))) exists_of_readString
    delivers_readString

def SpellsBoolean (value : Bool) (piece : List Char) : Prop :=
  piece = if value then "true".toList else "false".toList

theorem readBooleanWord_iff {b value : Bool} {word : List Char} {token : Read Char s} :
    Delivers (readBooleanWord b word token) value rest ↔
      value = b ∧ token.rest = word ++ rest := by
  rw [readBooleanWord, Text.delivers_certify]
  cases hliteral : literal word token.rest with
  | error f =>
    refine iff_of_false (by simp only [Except.map, reduceCtorEq, not_false_eq_true]) ?_
    rintro ⟨-, h⟩
    cases (literal_eq_ok_iff.2 h).symm.trans hliteral
  | ok tail =>
    rw [literal_eq_ok_iff.1 hliteral, Except.map, Except.ok.injEq, Prod.mk.injEq,
      List.append_cancel_left_eq, eq_comm (a := b)]

theorem SpellsBoolean.wellformed {value : Bool} {piece : List Char}
    (h : SpellsBoolean value piece) : Wellformed .value piece := by
  rw [SpellsBoolean] at h
  subst h
  cases value with
  | true => exact .scalar .true
  | false => exact .scalar .false

theorem exists_of_readBoolean {value : Bool} (h : Delivers (readBoolean s) value rest) :
    ∃ blanks piece, Blanks blanks ∧ SpellsBoolean value piece ∧
      s = blanks ++ (piece ++ rest) := by
  unfold readBoolean at h
  split at h
  · exact absurd h not_delivers_error
  next token htoken =>
  obtain ⟨blanks, hblanks, -, hs⟩ := finds_iff.1 (finds_of_eq htoken)
  split at h
  · next hc =>
    obtain ⟨rfl, hrest⟩ := readBooleanWord_iff.1 h
    exact ⟨blanks, _, hblanks, rfl, by rw [hs, hc, hrest]; rfl⟩
  split at h
  · next hc =>
    obtain ⟨rfl, hrest⟩ := readBooleanWord_iff.1 h
    exact ⟨blanks, _, hblanks, rfl, by rw [hs, hc, hrest]; rfl⟩
  · exact absurd h not_delivers_error

theorem delivers_readBoolean {value : Bool} {blanks piece : List Char} (hblanks : Blanks blanks)
    (h : SpellsBoolean value piece) :
    Delivers (readBoolean (blanks ++ (piece ++ rest))) value rest := by
  rw [SpellsBoolean] at h
  subst h
  cases value with
  | true =>
    have hfinds : Finds (blanks ++ ("true".toList ++ rest)) 't' ("rue".toList ++ rest) :=
      finds_iff.2 ⟨blanks, hblanks, by decide, rfl⟩
    obtain ⟨_, htoken⟩ := hfinds
    rw [if_pos rfl, readBoolean, htoken]
    simp only [if_true]
    exact readBooleanWord_iff.2 ⟨rfl, rfl⟩
  | false =>
    have hfinds : Finds (blanks ++ ("false".toList ++ rest)) 'f' ("alse".toList ++ rest) :=
      finds_iff.2 ⟨blanks, hblanks, by decide, rfl⟩
    obtain ⟨_, htoken⟩ := hfinds
    rw [if_neg Bool.false_ne_true, readBoolean, htoken]
    simp only [if_neg (show ¬ 'f' = 't' by decide), if_true]
    exact readBooleanWord_iff.2 ⟨rfl, rfl⟩

theorem reads_readBoolean : Reads readBoolean SpellsBoolean :=
  .of_parts SpellsBoolean.wellformed exists_of_readBoolean delivers_readBoolean

/-! ## Lists -/

/-- What stands before a part of a container: blanks, with a comma among them unless the part is the
first one. -/
inductive Lead : Bool → List Char → Prop
  | first {blanks : List Char} (hblanks : Blanks blanks) : Lead true blanks
  | next {blanks blanks' : List Char} (hblanks : Blanks blanks) (hblanks' : Blanks blanks') :
      Lead false (blanks ++ ',' :: blanks')

theorem Lead.append {isFirst : Bool} {lead blanks : List Char} (hlead : Lead isFirst lead)
    (hblanks : Blanks blanks) : Lead isFirst (lead ++ blanks) := by
  cases hlead with
  | first hlead => exact .first (hlead.append hblanks)
  | next hbefore hafter =>
    rw [List.append_assoc, List.cons_append]
    exact .next hbefore (hafter.append hblanks)

theorem itemStart_eq_done {isFirst : Bool} {closing : Read Char s}
    (h : itemStart isFirst s = .ok (.done closing)) :
    ∃ blanks, Blanks blanks ∧ s = blanks ++ ']' :: closing.rest := by
  unfold itemStart at h
  split at h
  · cases h
  next token htoken =>
  split at h
  · next hclosing =>
    obtain rfl := ItemStart.done.inj (Except.ok.inj h)
    obtain ⟨blanks, hblanks, -, hs⟩ := finds_iff.1 (finds_of_eq htoken)
    rw [hclosing] at hs
    exact ⟨blanks, hblanks, hs⟩
  split at h
  · cases h
  split at h
  · split at h
    · cases h
    split at h
    · cases h
    · cases h
  · cases h

theorem itemStart_eq_item {isFirst : Bool} {first : Read Char s}
    (h : itemStart isFirst s = .ok (.item first)) :
    ∃ lead, Lead isFirst lead ∧ s = lead ++ first.value :: first.rest := by
  unfold itemStart at h
  split at h
  · cases h
  next token htoken =>
  obtain ⟨blanks, hblanks, -, hs⟩ := finds_iff.1 (finds_of_eq htoken)
  split at h
  · cases h
  split at h
  · next hfirst =>
    obtain rfl := ItemStart.item.inj (Except.ok.inj h)
    exact ⟨blanks, hfirst ▸ .first hblanks, hs⟩
  next hfirst =>
  split at h
  · next hcomma =>
    split at h
    · cases h
    next next hnext =>
    split at h
    · cases h
    · obtain rfl := ItemStart.item.inj (Except.ok.inj h)
      obtain ⟨blanks', hblanks', -, hrest⟩ := finds_iff.1 (finds_of_eq hnext)
      refine ⟨blanks ++ ',' :: blanks', ?_, ?_⟩
      · rw [Bool.not_eq_true] at hfirst
        exact hfirst ▸ .next hblanks hblanks'
      · rw [hcomma, hrest] at hs
        rw [List.append_assoc]
        exact hs
  · cases h

theorem exists_itemStart_done (isFirst : Bool) {blanks : List Char} (hblanks : Blanks blanks)
    (hs : s = blanks ++ ']' :: rest) :
    ∃ shorter, itemStart isFirst s = .ok (.done ⟨']', rest, shorter⟩) := by
  obtain ⟨hshorter, htoken⟩ := finds_iff.2 ⟨blanks, hblanks, by decide, hs⟩
  refine ⟨hshorter, ?_⟩
  rw [itemStart, htoken]
  simp only [if_true]

theorem exists_itemStart_item {isFirst : Bool} {lead : List Char} {c : Char}
    (hlead : Lead isFirst lead) (hc : isBlank c = false) (hclosing : c ≠ ']')
    (hs : s = lead ++ c :: rest) :
    ∃ shorter, itemStart isFirst s = .ok (.item ⟨c, rest, shorter⟩) := by
  cases hlead with
  | first hblanks =>
    obtain ⟨hshorter, htoken⟩ := finds_iff.2 ⟨_, hblanks, hc, hs⟩
    refine ⟨hshorter, ?_⟩
    rw [itemStart, htoken]
    simp only [if_neg hclosing, if_true]
  | @next blanks blanks' hblanks hblanks' =>
    rw [List.append_assoc] at hs
    obtain ⟨hcomma, htoken⟩ := finds_iff.2 ⟨blanks, hblanks, by decide, hs⟩
    obtain ⟨hnext, htoken'⟩ := finds_iff.2 ⟨blanks', hblanks', hc, (rfl : blanks' ++ c :: rest = _)⟩
    refine ⟨Nat.lt_trans hnext hcomma, ?_⟩
    rw [itemStart, htoken]
    simp only [if_neg (show ¬ ',' = ']' by decide), Bool.false_eq_true, if_false, if_true]
    rw [show token? (blanks'.append (c :: rest)) = _ from htoken']
    simp only [if_neg hclosing]
    rfl

inductive SpellsItems (spells : α → List Char → Prop) : Bool → List α → List Char → Prop
  | done {isFirst : Bool} {blanks : List Char} (hblanks : Blanks blanks) :
      SpellsItems spells isFirst [] (blanks ++ [']'])
  | item {isFirst : Bool} {lead piece more : List Char} {a : α} {as : List α}
      (hlead : Lead isFirst lead) (hpiece : spells a piece)
      (hmore : SpellsItems spells false as more) :
      SpellsItems spells isFirst (a :: as) (lead ++ (piece ++ more))

def SpellsList (spells : α → List Char → Prop) (items : List α) (piece : List Char) : Prop :=
  ∃ content, SpellsItems spells true items content ∧ piece = '[' :: content

/-- What the grammar says of items behind the opening bracket or behind an item. -/
def formBehind (b : Bracket) (isFirst : Bool) : Form := if isFirst then .content b else .more b

theorem wellformed_item {isFirst : Bool} {lead value more : List Char} (hlead : Lead isFirst lead)
    (hvalue : Wellformed .value value) (hmore : Wellformed (.more .list) more) :
    Wellformed (formBehind .list isFirst) (lead ++ (value ++ more)) := by
  cases hlead with
  | first hblanks =>
    rw [← List.append_assoc]
    exact .parts (.item hblanks hvalue) hmore
  | next hblanks hblanks' =>
    have hnext := Wellformed.next hblanks (.item hblanks' hvalue) hmore
    rw [List.append_assoc, List.cons_append]
    rw [List.append_assoc] at hnext
    exact hnext

theorem SpellsItems.wellformed {spells : α → List Char → Prop}
    (hspells : ∀ {a piece}, spells a piece → Wellformed .value piece) {isFirst : Bool}
    {items : List α} {piece : List Char} (h : SpellsItems spells isFirst items piece) :
    Wellformed (formBehind .list isFirst) piece := by
  induction h with
  | @done isFirst blanks hblanks =>
    cases isFirst with
    | true => exact .empty hblanks
    | false => exact .last hblanks
  | item hlead hpiece _ ih => exact wellformed_item hlead (hspells hpiece) ih

variable {item : (s : List Char) → Except Fault (Read α s)} {spells : α → List Char → Prop}

theorem spellsItems_of_readItems (hitem : Reads item spells) {index : Nat} {items : List α}
    (h : Delivers (readItems item index s) items rest) :
    ∃ piece, SpellsItems spells (index == 0) items piece ∧ s = piece ++ rest := by
  fun_induction readItems item index s generalizing items rest with
  | case1 | case3 | case4 => exact absurd h not_delivers_error
  | case2 index s closing hclosing =>
    obtain ⟨rfl, hrest⟩ := delivers_ok.1 h
    obtain ⟨blanks, hblanks, hs⟩ := itemStart_eq_done hclosing
    refine ⟨blanks ++ [']'], .done hblanks, ?_⟩
    rw [show closing.rest = rest from hrest] at hs
    rw [List.append_assoc]
    exact hs
  | case5 index s first hfirst r hr more hmore ih =>
    obtain ⟨rfl, hrest⟩ := delivers_ok.1 h
    obtain ⟨lead, hlead, hs⟩ := itemStart_eq_item hfirst
    obtain ⟨blanks, piece, hblanks, hpiece, htext⟩ :=
      hitem.delivers_iff.1 (delivers_within.1 (delivers_of_eq hr))
    obtain ⟨content, hcontent, hcontentRest⟩ := ih (delivers_of_eq hmore)
    refine ⟨lead ++ blanks ++ (piece ++ content), .item (hlead.append hblanks) hpiece hcontent, ?_⟩
    rw [htext, show r.rest = _ from hcontentRest, show more.rest = rest from hrest] at hs
    rw [hs]
    simp only [List.append_assoc]

theorem delivers_readItems (hitem : Reads item spells) {index : Nat} {items : List α}
    {piece : List Char} (h : SpellsItems spells (index == 0) items piece)
    (hs : s = piece ++ rest) : Delivers (readItems item index s) items rest := by
  generalize hfirst : (index == 0) = isFirst at h
  induction h generalizing index s with
  | @done isFirst blanks hblanks =>
    rw [List.append_assoc] at hs
    obtain ⟨_, hstart⟩ := exists_itemStart_done isFirst hblanks hs
    rw [readItems, hfirst, hstart]
    exact delivers_ok.2 ⟨rfl, rfl⟩
  | @item isFirst lead piece more a as hlead hpiece _ ih =>
    obtain ⟨c, tail, hcons, hc, hclosing⟩ := (hitem.wellformed hpiece).exists_eq_cons
    have hstart : s = lead ++ c :: (tail ++ (more ++ rest)) := by
      rw [hs, hcons]
      simp only [List.append_assoc, List.cons_append]
    obtain ⟨hshorter, hitemStart⟩ := exists_itemStart_item hlead hc hclosing hstart
    have hread : Delivers (item (c :: (tail ++ (more ++ rest)))) a (more ++ rest) :=
      hitem.delivers_iff.2 ⟨[], piece, Blanks.nil, hpiece, by rw [hcons]; rfl⟩
    obtain ⟨_, hitemRead⟩ := hread
    have hmore : Delivers (readItems item (index + 1) (more ++ rest)) as rest := ih rfl rfl
    obtain ⟨_, hmoreRead⟩ := hmore
    rw [readItems, hfirst, hitemStart]
    simp only [within, hitemRead, Read.again, hmoreRead]
    exact delivers_ok.2 ⟨rfl, rfl⟩

/-- A list is read exactly from its spellings, if its items are. -/
theorem Reads.readList (hitem : Reads item spells) :
    Reads (readList item) (SpellsList spells) where
  wellformed := by
    rintro items _ ⟨content, hcontent, rfl⟩
    exact .container (b := .list) (hcontent.wellformed hitem.wellformed)
  delivers_iff := by
    intro s items rest
    constructor
    · intro h
      unfold Json.readList at h
      split at h
      · exact absurd h not_delivers_error
      next token htoken =>
      split at h
      · next hbracket =>
        obtain ⟨blanks, hblanks, -, hs⟩ := finds_iff.1 (finds_of_eq htoken)
        obtain ⟨content, hcontent, hrest⟩ := spellsItems_of_readItems hitem (delivers_after.1 h)
        refine ⟨blanks, '[' :: content, hblanks, ⟨content, hcontent, rfl⟩, ?_⟩
        rw [hs, hbracket, hrest]
        rfl
      · exact absurd h not_delivers_error
    · rintro ⟨blanks, _, hblanks, ⟨content, hcontent, rfl⟩, rfl⟩
      have hfinds : Finds (blanks ++ ('[' :: content ++ rest)) '[' (content ++ rest) :=
        finds_iff.2 ⟨blanks, hblanks, by decide, rfl⟩
      obtain ⟨_, htoken⟩ := hfinds
      have hitems : Delivers (readItems item 0 (content ++ rest)) items rest :=
        delivers_readItems hitem hcontent rfl
      rw [Json.readList, htoken]
      simp only [if_true]
      exact delivers_after.2 hitems

end RoutePolicy.Json
