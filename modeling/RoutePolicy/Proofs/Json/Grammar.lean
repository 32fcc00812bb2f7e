import RoutePolicy.Proofs.Json.Number
import RoutePolicy.Proofs.Json.Text
import RoutePolicy.Proofs.Json.Token

/-!
# The grammar of JSON values

`Wellformed` is the grammar of JSON values. A container is cut at its commas from the left: its
content is empty or a part with more behind it, and more is the closing bracket or a comma, a part
and more again. Passing over a value passes over exactly one well-formed value
(`exists_of_skipFrom`, `passedOver_of_wellformed`). The reader keeps the containers that are still
open in a list, so what is proved of a run is that it closes them all (`Closes`).
-/

namespace RoutePolicy.Json

open Text (Read Delivers delivers_of_eq)

variable {s rest : List Char}

/-! ## Values without parts -/

inductive IsScalar : List Char → Prop
  | null : IsScalar "null".toList
  | true : IsScalar "true".toList
  | false : IsScalar "false".toList
  | number {s : List Char} (h : IsNumber s) : IsScalar s
  | text {s : List Char} (h : IsQuoted s) : IsScalar s

theorem exists_of_afterScalar {c : Char} (h : afterScalar c s = .ok rest) :
    ∃ scalar, IsScalar scalar ∧ c :: s = scalar ++ rest := by
  unfold afterScalar at h
  split at h
  · next hc =>
    rw [hc, literal_eq_ok_iff.1 h]
    exact ⟨_, .null, rfl⟩
  split at h
  · next hc =>
    rw [hc, literal_eq_ok_iff.1 h]
    exact ⟨_, .true, rfl⟩
  split at h
  · next hc =>
    rw [hc, literal_eq_ok_iff.1 h]
    exact ⟨_, .false, rfl⟩
  split at h
  · obtain ⟨number, hnumber, hs⟩ := exists_of_afterNumber h
    exact ⟨number, .number hnumber, hs⟩
  split at h
  · next hc =>
    obtain ⟨content, hcontent, rfl⟩ := afterText_eq_ok_iff.1 h
    refine ⟨'"' :: (content ++ ['"']), .text ⟨content, hcontent, rfl⟩, ?_⟩
    rw [hc, List.cons_append, List.append_assoc]
    rfl
  · cases h

def BeginsScalar (c : Char) : Prop :=
  c = 'n' ∨ c = 't' ∨ c = 'f' ∨ (c = '-' ∨ isDigit c = true) ∨ c = '"'

theorem IsNumber.exists_eq_cons {number : List Char} (h : IsNumber number) :
    ∃ c tail, number = c :: tail ∧ (c = '-' ∨ isDigit c = true) := by
  cases h with
  | plain h =>
    obtain ⟨whole, fraction, exponent, hwhole, -, -, hnumber⟩ := h
    obtain ⟨c, tail, rfl, hc⟩ := hwhole.exists_eq_cons
    exact ⟨c, tail ++ (fraction ++ exponent), hnumber, .inr hc⟩
  | negative => exact ⟨'-', _, rfl, .inl rfl⟩

theorem IsScalar.exists_eq_cons {scalar : List Char} (h : IsScalar scalar) :
    ∃ c tail, scalar = c :: tail ∧ BeginsScalar c := by
  cases h with
  | null => exact ⟨'n', _, rfl, .inl rfl⟩
  | true => exact ⟨'t', _, rfl, .inr (.inl rfl)⟩
  | false => exact ⟨'f', _, rfl, .inr (.inr (.inl rfl))⟩
  | number h =>
    obtain ⟨c, tail, hcons, hc⟩ := h.exists_eq_cons
    exact ⟨c, tail, hcons, .inr (.inr (.inr (.inl hc)))⟩
  | text h =>
    obtain ⟨content, -, htext⟩ := h
    exact ⟨'"', content ++ ['"'], htext, .inr (.inr (.inr (.inr rfl)))⟩

theorem BeginsScalar.not_mem {c : Char} (h : BeginsScalar c) :
    c ∉ [' ', '\n', '\t', '\r', '[', '{', ']', '}', ',', ':'] := by
  rcases h with rfl | rfl | rfl | (rfl | h) | rfl
  · decide
  · decide
  · decide
  · decide
  · intro hmem
    have hall : [' ', '\n', '\t', '\r', '[', '{', ']', '}', ',', ':'].all (!isDigit ·) = true := by
      decide
    have hnot : (!isDigit c) = true := List.all_eq_true.1 hall c hmem
    rw [h] at hnot
    cases hnot
  · decide

theorem BeginsScalar.not_isBlank {c : Char} (h : BeginsScalar c) : isBlank c = false := by
  have hmem := h.not_mem
  simp only [List.mem_cons, not_or] at hmem
  simp only [isBlank, Bool.or_eq_false_iff, beq_eq_false_iff_ne]
  exact ⟨⟨⟨hmem.1, hmem.2.1⟩, hmem.2.2.1⟩, hmem.2.2.2.1⟩

/-- Of all values only a number needs to end, since nothing closes it. -/
def Ended (value rest : List Char) : Prop :=
  ∀ c, value.head? = some c → c = '-' ∨ isDigit c = true → Ends rest

theorem Ended.of_ends {value : List Char} (h : Ends rest) : Ended value rest := fun _ _ _ => h

theorem afterScalar_append {c : Char} {tail : List Char} (h : IsScalar (c :: tail))
    (hended : Ended (c :: tail) rest) : afterScalar c (tail ++ rest) = .ok rest := by
  have hnumber : ∀ d, d = '-' ∨ isDigit d = true → d ≠ 'n' ∧ d ≠ 't' ∧ d ≠ 'f' := by
    intro d hd
    refine ⟨?_, ?_, ?_⟩
    · rintro rfl
      exact absurd hd (by decide)
    · rintro rfl
      exact absurd hd (by decide)
    · rintro rfl
      exact absurd hd (by decide)
  generalize hscalar : c :: tail = scalar at h
  cases h with
  | null =>
    obtain ⟨rfl, rfl⟩ := List.cons.inj hscalar
    exact literal_eq_ok_iff.2 rfl
  | true =>
    obtain ⟨rfl, rfl⟩ := List.cons.inj hscalar
    exact literal_eq_ok_iff.2 rfl
  | false =>
    obtain ⟨rfl, rfl⟩ := List.cons.inj hscalar
    exact literal_eq_ok_iff.2 rfl
  | number h =>
    obtain ⟨d, tail', hcons, hd⟩ := h.exists_eq_cons
    obtain ⟨rfl, rfl⟩ := List.cons.inj (hscalar.trans hcons)
    obtain ⟨hn, ht, hf⟩ := hnumber c hd
    rw [afterScalar, if_neg hn, if_neg ht, if_neg hf, if_pos hd, ← List.cons_append, hscalar]
    exact afterNumber_append h (hended c rfl hd)
  | text h =>
    obtain ⟨content, hcontent, rfl⟩ := h
    obtain ⟨rfl, rfl⟩ := List.cons.inj hscalar
    rw [List.append_assoc, afterScalar, if_neg (by decide), if_neg (by decide),
      if_neg (by decide), if_neg (by decide), if_pos rfl]
    exact afterText_eq_ok_iff.2 ⟨content, hcontent, rfl⟩

/-! ## Values -/

namespace Bracket

def opening : Bracket → Char
  | list => '['
  | object => '{'

theorem closing_not_isBlank (b : Bracket) : isBlank b.closing = false := by
  cases b <;> decide

end Bracket

inductive Form where
  | value
  /-- An item or a member of a container, with the blanks before it. -/
  | part (b : Bracket)
  /-- All of a container behind its opening bracket. -/
  | content (b : Bracket)
  /-- All of a container behind one of its parts. -/
  | more (b : Bracket)

inductive Wellformed : Form → List Char → Prop
  | scalar {s : List Char} (h : IsScalar s) : Wellformed .value s
  | container {b : Bracket} {content : List Char} (h : Wellformed (.content b) content) :
      Wellformed .value (b.opening :: content)
  | empty {b : Bracket} {blanks : List Char} (hblanks : Blanks blanks) :
      Wellformed (.content b) (blanks ++ [b.closing])
  | parts {b : Bracket} {part more : List Char} (hpart : Wellformed (.part b) part)
      (hmore : Wellformed (.more b) more) : Wellformed (.content b) (part ++ more)
  | item {blanks value : List Char} (hblanks : Blanks blanks) (hvalue : Wellformed .value value) :
      Wellformed (.part .list) (blanks ++ value)
  | member {blanks key blanks' value : List Char} (hblanks : Blanks blanks) (hkey : IsQuoted key)
      (hblanks' : Blanks blanks') (hvalue : Wellformed (.part .list) value) :
      Wellformed (.part .object) (blanks ++ (key ++ (blanks' ++ ':' :: value)))
  | last {b : Bracket} {blanks : List Char} (hblanks : Blanks blanks) :
      Wellformed (.more b) (blanks ++ [b.closing])
  | next {b : Bracket} {blanks part more : List Char} (hblanks : Blanks blanks)
      (hpart : Wellformed (.part b) part) (hmore : Wellformed (.more b) more) :
      Wellformed (.more b) (blanks ++ ',' :: (part ++ more))

theorem Wellformed.blanks_append {b : Bracket} {blanks part : List Char} (hblanks : Blanks blanks)
    (h : Wellformed (.part b) part) : Wellformed (.part b) (blanks ++ part) := by
  cases h with
  | item hblanks' hvalue =>
    rw [← List.append_assoc]
    exact .item (hblanks.append hblanks') hvalue
  | member hblanks' hkey hcolon hvalue =>
    rw [← List.append_assoc]
    exact .member (hblanks.append hblanks') hkey hcolon hvalue

/-! ## What is passed over is well-formed -/

/-- The text closes all open containers, the innermost first, and holds nothing behind the last. -/
def Closes : List Bracket → List Char → Prop
  | [], s => s = []
  | b :: outer, s => ∃ more tail, Wellformed (.more b) more ∧ Closes outer tail ∧ s = more ++ tail

/-- The text is what a reader in the given state reads before it goes on with what is open. -/
def Begins : SkipState → List Char → Prop
  | .value, s => Wellformed (.part .list) s
  | .opened b, s => Wellformed (.content b) s
  | .key, s => Wellformed (.part .object) s
  | .ended, s => s = []

theorem begins_part {b : Bracket} : Begins (.part b) s ↔ Wellformed (.part b) s := by
  cases b <;> exact Iff.rfl

theorem skipScalar_iff {c : Char} :
    Delivers (skipScalar c s) () rest ↔ afterScalar c s = .ok rest :=
  Text.delivers_certifyRest

theorem skipText_iff : Delivers (skipText s) () rest ↔ afterText s = .ok rest :=
  Text.delivers_certifyRest

theorem exists_of_skipFrom {state : SkipState} {opens : List Bracket}
    (h : skipFrom state opens s = .ok rest) :
    ∃ first tail, Begins state first ∧ Closes opens tail ∧ s = first ++ (tail ++ rest) := by
  fun_induction skipFrom state opens s with
  | case1 | case4 | case6 | case9 | case10 | case11 | case13 | case14 | case16 | case19 =>
    cases h
  | case2 opens s token htoken hbracket ih =>
    obtain ⟨blanks, hblanks, -, hs⟩ := finds_iff.1 (finds_of_eq htoken)
    obtain ⟨content, tail, hcontent, htail, hrest⟩ := ih h
    refine ⟨blanks ++ '[' :: content, tail, .item hblanks (.container hcontent), htail, ?_⟩
    rw [hs, hbracket, hrest, List.append_assoc]
    rfl
  | case3 opens s token htoken _ hbracket ih =>
    obtain ⟨blanks, hblanks, -, hs⟩ := finds_iff.1 (finds_of_eq htoken)
    obtain ⟨content, tail, hcontent, htail, hrest⟩ := ih h
    refine ⟨blanks ++ '{' :: content, tail, .item hblanks (.container hcontent), htail, ?_⟩
    rw [hs, hbracket, hrest, List.append_assoc]
    rfl
  | case5 opens s token htoken _ _ r hscalar ih =>
    obtain ⟨blanks, hblanks, -, hs⟩ := finds_iff.1 (finds_of_eq htoken)
    obtain ⟨_, tail, rfl, htail, hrest⟩ := ih h
    obtain ⟨scalar, hscalar, hcons⟩ :=
      exists_of_afterScalar (skipScalar_iff.1 (delivers_of_eq hscalar))
    refine ⟨blanks ++ scalar, tail, .item hblanks (.scalar hscalar), htail, ?_⟩
    rw [hs, hcons, hrest, List.append_assoc]
    rfl
  | case7 opens s b token htoken hclosing ih =>
    obtain ⟨blanks, hblanks, -, hs⟩ := finds_iff.1 (finds_of_eq htoken)
    obtain ⟨_, tail, rfl, htail, hrest⟩ := ih h
    refine ⟨blanks ++ [b.closing], tail, .empty hblanks, htail, ?_⟩
    rw [hs, hclosing, hrest, List.append_assoc]
    rfl
  | case8 opens s b token htoken _ ih =>
    obtain ⟨blanks, hblanks, -, hs⟩ := finds_iff.1 (finds_of_eq htoken)
    obtain ⟨part, _, hpart, ⟨more, tail, hmore, htail, rfl⟩, hrest⟩ := ih h
    refine ⟨blanks ++ part ++ more, tail,
      .parts ((begins_part.1 hpart).blanks_append hblanks) hmore, htail, ?_⟩
    rw [hs, hrest]
    simp only [List.append_assoc]
  | case12 opens s token htoken hquote r htext colon hcolon hvalue ih =>
    obtain ⟨blanks, hblanks, -, hs⟩ := finds_iff.1 (finds_of_eq htoken)
    obtain ⟨blanks', hblanks', -, hr⟩ := finds_iff.1 (finds_of_eq hcolon)
    obtain ⟨content, hcontent, hkey⟩ := afterText_eq_ok_iff.1 (skipText_iff.1 (delivers_of_eq htext))
    obtain ⟨value, tail, hpart, htail, hrest⟩ := ih h
    refine ⟨_, tail, .member hblanks ⟨content, hcontent, rfl⟩ hblanks' hpart, htail, ?_⟩
    rw [hs, hquote, hkey, hr, hvalue, hrest]
    simp only [List.append_assoc, List.cons_append, List.nil_append]
  | case15 s =>
    obtain rfl := Except.ok.inj h
    exact ⟨[], [], rfl, rfl, rfl⟩
  | case17 s b outer token htoken hcomma ih =>
    obtain ⟨blanks, hblanks, -, hs⟩ := finds_iff.1 (finds_of_eq htoken)
    obtain ⟨part, _, hpart, ⟨more, tail, hmore, htail, rfl⟩, hrest⟩ := ih h
    refine ⟨[], _, rfl, ⟨_, tail, .next hblanks (begins_part.1 hpart) hmore, htail, rfl⟩, ?_⟩
    rw [hs, hcomma, hrest]
    simp only [List.append_assoc, List.cons_append, List.nil_append]
  | case18 s b outer token htoken _ hclosing ih =>
    obtain ⟨blanks, hblanks, -, hs⟩ := finds_iff.1 (finds_of_eq htoken)
    obtain ⟨_, tail, rfl, htail, hrest⟩ := ih h
    refine ⟨[], _, rfl, ⟨_, tail, .last hblanks, htail, rfl⟩, ?_⟩
    rw [hs, hclosing, hrest]
    simp only [List.append_assoc, List.cons_append, List.nil_append]

/-! ## Every well-formed value is passed over -/

theorem skipFrom_part_of_finds (b : Bracket) (opens : List Bracket) {c : Char}
    (h : Finds s c rest) : skipFrom (.part b) opens s = skipFrom (.part b) opens (c :: rest) := by
  obtain ⟨blanks, -, hc, -⟩ := finds_iff.1 h
  obtain ⟨_, htoken⟩ := h
  obtain ⟨_, htoken'⟩ := finds_iff.2 ⟨[], Blanks.nil, hc, (rfl : c :: rest = _)⟩
  cases b with
  | list =>
    rw [SkipState.part, skipFrom.eq_def .value opens s, skipFrom.eq_def .value opens (c :: rest)]
    simp only [htoken, htoken']
    cases skipScalar c rest with
    | error => rfl
    | ok => rfl
  | object =>
    rw [SkipState.part, skipFrom.eq_def .key opens s, skipFrom.eq_def .key opens (c :: rest)]
    simp only [htoken, htoken']
    cases skipText rest with
    | error => rfl
    | ok key => cases hcolon : token? key.rest <;> simp only [hcolon]

theorem ends_cons {c : Char} (h : isBlank c = true ∨ c ∈ [',', ']', '}']) : Ends (c :: s) := by
  intro _ hd
  obtain rfl : c = _ := Option.some.inj hd
  rcases h with h | h
  · simp only [isBlank, Bool.or_eq_true, beq_iff_eq] at h
    rcases h with ((rfl | rfl) | rfl) | rfl <;> decide
  · simp only [List.mem_cons, List.not_mem_nil, or_false] at h
    rcases h with rfl | rfl | rfl <;> decide

theorem ends_blanks_append {blanks : List Char} {c : Char} (hblanks : Blanks blanks)
    (hc : c ∈ [',', ']', '}']) : Ends (blanks ++ c :: s) := by
  cases blanks with
  | nil => exact ends_cons (.inr hc)
  | cons d blanks => exact ends_cons (.inl (hblanks d List.mem_cons_self))

theorem Bracket.closing_mem (b : Bracket) : b.closing ∈ [',', ']', '}'] := by
  cases b <;> decide

theorem Wellformed.ends_more {b : Bracket} {more : List Char} (h : Wellformed (.more b) more) :
    Ends (more ++ rest) := by
  cases h with
  | last hblanks =>
    rw [List.append_assoc]
    exact ends_blanks_append hblanks b.closing_mem
  | next hblanks =>
    rw [List.append_assoc]
    exact ends_blanks_append hblanks (by decide)

theorem Wellformed.exists_eq_cons {value : List Char} (h : Wellformed .value value) :
    ∃ c tail, value = c :: tail ∧ isBlank c = false ∧ c ≠ ']' := by
  cases h with
  | scalar h =>
    obtain ⟨c, tail, hcons, hc⟩ := h.exists_eq_cons
    refine ⟨c, tail, hcons, hc.not_isBlank, ?_⟩
    rintro rfl
    exact hc.not_mem (by decide)
  | @container b content =>
    refine ⟨b.opening, content, rfl, ?_⟩
    cases b <;> decide

theorem Wellformed.exists_finds {b : Bracket} {part : List Char} (h : Wellformed (.part b) part)
    (rest : List Char) : ∃ c tail, Finds (part ++ rest) c tail ∧ c ≠ b.closing := by
  cases h with
  | item hblanks hvalue =>
    obtain ⟨c, tail, rfl, hblank, hc⟩ := hvalue.exists_eq_cons
    refine ⟨c, tail ++ rest, finds_iff.2 ⟨_, hblanks, hblank, ?_⟩, hc⟩
    rw [List.append_assoc]
    rfl
  | @member blanks _ blanks' value hblanks hkey =>
    obtain ⟨content, -, rfl⟩ := hkey
    refine ⟨'"', content ++ '"' :: (blanks' ++ ':' :: (value ++ rest)),
      finds_iff.2 ⟨blanks, hblanks, by decide, ?_⟩, by decide⟩
    simp only [List.append_assoc, List.cons_append, List.nil_append]

/-- What is passed over in which state, and what remains open behind it. -/
def PassedOver (opens : List Bracket) : Form → List Char → Prop
  | .value, s => ∀ rest, Ends rest → skipFrom .value opens (s ++ rest) = skipFrom .ended opens rest
  | .part b, s =>
    ∀ rest, Ends rest → skipFrom (.part b) opens (s ++ rest) = skipFrom .ended opens rest
  | .content b, s => ∀ rest, skipFrom (.opened b) opens (s ++ rest) = skipFrom .ended opens rest
  | .more b, s => ∀ rest, skipFrom .ended (b :: opens) (s ++ rest) = skipFrom .ended opens rest

section PassedOver

variable {opens : List Bracket} {b : Bracket}

theorem skipFrom_scalar (h : IsScalar s) (hended : Ended s rest) :
    skipFrom .value opens (s ++ rest) = skipFrom .ended opens rest := by
  obtain ⟨c, tail, rfl, hc⟩ := h.exists_eq_cons
  obtain ⟨_, htoken⟩ :=
    finds_iff.2 ⟨[], Blanks.nil, hc.not_isBlank, (rfl : c :: (tail ++ rest) = _)⟩
  obtain ⟨_, hskip⟩ := skipScalar_iff.2 (afterScalar_append h hended)
  have hmem := hc.not_mem
  simp only [List.mem_cons, not_or] at hmem
  rw [List.cons_append, skipFrom, htoken]
  simp only [if_neg hmem.2.2.2.2.1, if_neg hmem.2.2.2.2.2.1, hskip]

theorem passedOver_scalar (h : IsScalar s) : PassedOver opens .value s :=
  fun _ hends => skipFrom_scalar h (.of_ends hends)

theorem skipFrom_container {content : List Char} (h : PassedOver opens (.content b) content) :
    skipFrom .value opens (b.opening :: content ++ rest) = skipFrom .ended opens rest := by
  obtain ⟨_, htoken⟩ := finds_iff.2 ⟨[], Blanks.nil, (by cases b <;> decide),
    (rfl : b.opening :: (content ++ rest) = _)⟩
  rw [List.cons_append, skipFrom, htoken]
  cases b with
  | list => exact h rest
  | object => exact h rest

theorem passedOver_container {content : List Char} (h : PassedOver opens (.content b) content) :
    PassedOver opens .value (b.opening :: content) :=
  fun _ _ => skipFrom_container h

theorem passedOver_empty {blanks : List Char} (hblanks : Blanks blanks) :
    PassedOver opens (.content b) (blanks ++ [b.closing]) := by
  intro rest
  rw [List.append_assoc]
  obtain ⟨_, htoken⟩ := finds_iff.2
    ⟨blanks, hblanks, b.closing_not_isBlank, (rfl : blanks ++ ([b.closing] ++ rest) = _)⟩
  rw [skipFrom, htoken]
  simp only [if_true]
  rfl

theorem passedOver_parts {part more : List Char} (hpart : Wellformed (.part b) part)
    (hmore : Wellformed (.more b) more) (hpassed : PassedOver (b :: opens) (.part b) part)
    (hpassed' : PassedOver opens (.more b) more) :
    PassedOver opens (.content b) (part ++ more) := by
  intro rest
  rw [List.append_assoc]
  obtain ⟨c, tail, hfinds, hc⟩ := hpart.exists_finds (more ++ rest)
  have hskip := skipFrom_part_of_finds b (b :: opens) hfinds
  obtain ⟨_, htoken⟩ := hfinds
  rw [skipFrom, htoken]
  simp only [if_neg hc]
  rw [← hskip, hpassed _ hmore.ends_more, hpassed' rest]

theorem passedOver_item {blanks value : List Char} (hblanks : Blanks blanks)
    (hvalue : Wellformed .value value) (hpassed : PassedOver opens .value value) :
    PassedOver opens (.part .list) (blanks ++ value) := by
  intro rest hends
  obtain ⟨c, tail, hcons, hblank, -⟩ := hvalue.exists_eq_cons
  have hfinds : Finds (blanks ++ (value ++ rest)) c (tail ++ rest) :=
    finds_iff.2 ⟨blanks, hblanks, hblank, by rw [hcons]; rfl⟩
  have hskip := skipFrom_part_of_finds .list opens hfinds
  rw [List.append_assoc, hskip, ← List.cons_append, ← hcons]
  exact hpassed rest hends

theorem passedOver_member {blanks key blanks' value : List Char} (hblanks : Blanks blanks)
    (hkey : IsQuoted key) (hblanks' : Blanks blanks')
    (hpassed : PassedOver opens (.part .list) value) :
    PassedOver opens (.part .object) (blanks ++ (key ++ (blanks' ++ ':' :: value))) := by
  intro rest hends
  obtain ⟨content, hcontent, rfl⟩ := hkey
  have hfinds : Finds (blanks ++ ('"' :: (content ++ ['"']) ++ (blanks' ++ ':' :: value)) ++ rest)
      '"' (content ++ '"' :: (blanks' ++ ':' :: (value ++ rest))) := by
    refine finds_iff.2 ⟨blanks, hblanks, by decide, ?_⟩
    simp only [List.append_assoc, List.cons_append, List.nil_append]
  obtain ⟨_, htoken⟩ := hfinds
  obtain ⟨_, htext⟩ := skipText_iff.2 (afterText_eq_ok_iff.2
    ⟨content, hcontent, (rfl : content ++ '"' :: (blanks' ++ ':' :: (value ++ rest)) = _)⟩)
  obtain ⟨_, hcolon⟩ := finds_iff.2
    ⟨blanks', hblanks', by decide, (rfl : blanks' ++ ':' :: (value ++ rest) = _)⟩
  rw [SkipState.part, skipFrom, htoken]
  simp only [if_true, htext, hcolon]
  exact hpassed rest hends

theorem passedOver_last {blanks : List Char} (hblanks : Blanks blanks) :
    PassedOver opens (.more b) (blanks ++ [b.closing]) := by
  intro rest
  rw [List.append_assoc]
  obtain ⟨_, htoken⟩ := finds_iff.2
    ⟨blanks, hblanks, b.closing_not_isBlank, (rfl : blanks ++ ([b.closing] ++ rest) = _)⟩
  have hcomma : b.closing ≠ ',' := by cases b <;> decide
  rw [skipFrom, htoken]
  simp only [if_neg hcomma, if_true]
  rfl

theorem passedOver_next {blanks part more : List Char} (hblanks : Blanks blanks)
    (hmore : Wellformed (.more b) more) (hpassed : PassedOver (b :: opens) (.part b) part)
    (hpassed' : PassedOver opens (.more b) more) :
    PassedOver opens (.more b) (blanks ++ ',' :: (part ++ more)) := by
  intro rest
  have hfinds : Finds (blanks ++ ',' :: (part ++ more) ++ rest) ',' (part ++ (more ++ rest)) := by
    refine finds_iff.2 ⟨blanks, hblanks, by decide, ?_⟩
    simp only [List.append_assoc, List.cons_append]
  obtain ⟨_, htoken⟩ := hfinds
  rw [skipFrom, htoken]
  simp only [if_true]
  rw [hpassed _ hmore.ends_more, hpassed' rest]

end PassedOver

theorem passedOver_of_wellformed {form : Form} (h : Wellformed form s) (opens : List Bracket) :
    PassedOver opens form s := by
  induction h generalizing opens with
  | scalar h => exact passedOver_scalar h
  | container _ ih => exact passedOver_container (ih opens)
  | empty hblanks => exact passedOver_empty hblanks
  | @parts b _ _ hpart hmore ihpart ihmore =>
    exact passedOver_parts hpart hmore (ihpart (b :: opens)) (ihmore opens)
  | item hblanks hvalue ih => exact passedOver_item hblanks hvalue (ih opens)
  | member hblanks hkey hblanks' _ ih => exact passedOver_member hblanks hkey hblanks' (ih opens)
  | last hblanks => exact passedOver_last hblanks
  | @next b _ _ _ hblanks _ hmore ihpart ihmore =>
    exact passedOver_next hblanks hmore (ihpart (b :: opens)) (ihmore opens)

theorem skipFrom_ended (s : List Char) : skipFrom .ended [] s = .ok s := by rw [skipFrom]

theorem exists_of_skipValue (h : Delivers (skipValue s) () rest) :
    ∃ part, Wellformed (.part .list) part ∧ s = part ++ rest := by
  obtain ⟨part, _, hpart, rfl, hs⟩ := exists_of_skipFrom (Text.delivers_certifyRest.1 h)
  exact ⟨part, hpart, hs⟩

theorem delivers_skipValue {part : List Char} (hpart : Wellformed (.part .list) part)
    (hends : Ends rest) : Delivers (skipValue (part ++ rest)) () rest :=
  Text.delivers_certifyRest.2
    ((passedOver_of_wellformed hpart [] rest hends).trans (skipFrom_ended rest))

theorem Wellformed.skipFrom_value {value : List Char} (h : Wellformed .value value)
    (hended : Ended value rest) : skipFrom .value [] (value ++ rest) = .ok rest := by
  rw [← skipFrom_ended rest]
  cases h with
  | scalar h => exact skipFrom_scalar h hended
  | container h => exact skipFrom_container (passedOver_of_wellformed h [])

/-- No value is the beginning of another one, if numbers end. -/
theorem Wellformed.value_inj {value value' blanks blanks' rest' : List Char}
    (h : Wellformed .value value) (h' : Wellformed .value value') (hended : Ended value rest)
    (hended' : Ended value' rest') (hblanks : Blanks blanks) (hblanks' : Blanks blanks')
    (heq : blanks ++ (value ++ rest) = blanks' ++ (value' ++ rest')) :
    value = value' ∧ rest = rest' := by
  obtain ⟨c, tail, hcons, hc, -⟩ := h.exists_eq_cons
  obtain ⟨c', tail', hcons', hc', -⟩ := h'.exists_eq_cons
  have hfinds : Finds (blanks ++ (value ++ rest)) c (tail ++ rest) :=
    finds_iff.2 ⟨blanks, hblanks, hc, by rw [hcons]; rfl⟩
  have hfinds' : Finds (blanks ++ (value ++ rest)) c' (tail' ++ rest') :=
    finds_iff.2 ⟨blanks', hblanks', hc', by rw [heq, hcons']; rfl⟩
  obtain ⟨rfl, htail⟩ := hfinds.unique hfinds'
  have htext : value ++ rest = value' ++ rest' := by
    rw [hcons, hcons', List.cons_append, List.cons_append, htail]
  have hskip := h.skipFrom_value hended
  rw [htext, h'.skipFrom_value hended'] at hskip
  obtain rfl := Except.ok.inj hskip
  exact ⟨List.append_cancel_right htext, rfl⟩

/-- No container is the beginning of another one. -/
theorem Wellformed.content_append_inj {b : Bracket} {content content' rest' : List Char}
    (h : Wellformed (.content b) content) (h' : Wellformed (.content b) content')
    (heq : content ++ rest = content' ++ rest') : content = content' ∧ rest = rest' := by
  have hskip : (Except.ok rest : Except Fault (List Char)) = .ok rest' := by
    rw [← skipFrom_ended rest, ← skipFrom_ended rest', ← passedOver_of_wellformed h [] rest,
      ← passedOver_of_wellformed h' [] rest', heq]
  obtain rfl := Except.ok.inj hskip
  exact ⟨List.append_cancel_right heq, rfl⟩

end RoutePolicy.Json
