import RoutePolicy.Proofs.Json.Parts

/-!
# The trail of a fault

The trail of a fault grows on its way out, in the readers of containers. A reader of a value without
parts reports a fault about the value itself, whatever it stumbles over (`Direct`). A reader of a
list counts the items that it could read, so that the fault of the next one is told with its number
(`failsAt_readItems`).
-/

namespace RoutePolicy.Json

open Text (Read Delivers delivers_of_eq)

variable {α β : Type} {s : List Char} {trail : List Step}

/-- The reader fails, and the trail leads to the value at fault. -/
def FailsAt (trail : List Step) (result : Except Fault α) : Prop :=
  ∃ f, result = .error f ∧ f.trail = trail

theorem failsAt_error {f : Fault} (h : f.trail = trail) :
    FailsAt trail (.error f : Except Fault α) := ⟨f, rfl, h⟩

theorem FailsAt.map {result : Except Fault α} (h : FailsAt trail result) (g : α → β) :
    FailsAt trail (result.map g) := by
  obtain ⟨f, rfl, hf⟩ := h
  exact failsAt_error hf

theorem FailsAt.within {result : Except Fault α} (h : FailsAt trail result) (step : Step) :
    FailsAt (step :: trail) (within step result) := by
  obtain ⟨f, rfl, rfl⟩ := h
  exact failsAt_error rfl

theorem FailsAt.not_delivers {result : Except Fault (Read α s)} (h : FailsAt trail result) (a : α)
    (rest : List Char) : ¬ Delivers result a rest := by
  obtain ⟨f, rfl, -⟩ := h
  exact Text.not_delivers_error

theorem exists_failsAt {result : Except Fault (Read α s)}
    (h : ∀ a rest, ¬ Delivers result a rest) : ∃ trail, FailsAt trail result := by
  cases result with
  | error f => exact ⟨f.trail, failsAt_error rfl⟩
  | ok r => exact absurd (delivers_of_eq rfl) (h r.value r.rest)

/-! ## Values without parts -/

/-- No fault is about a value inside the one that is read. -/
structure Direct (result : Except Fault α) : Prop where
  trail : ∀ f, result = .error f → f.trail = []

section Steps

variable {result : Except Fault α}

theorem Direct.eq_nil (h : Direct result) (hfails : FailsAt trail result) : trail = [] := by
  obtain ⟨f, hf, rfl⟩ := hfails
  exact h.trail f hf

theorem direct_ok (a : α) : Direct (.ok a) := ⟨fun _ h => by cases h⟩

theorem direct_error {f : Fault} (h : f.trail = []) : Direct (.error f : Except Fault α) :=
  ⟨fun _ heq => Except.error.inj heq ▸ h⟩

theorem direct_here (problem : Problem) (rest : List Char) :
    Direct (.error (.here problem rest) : Except Fault α) := direct_error rfl

theorem direct_next (problem : Problem) (rest : List Char) :
    Direct (.error (.next problem rest) : Except Fault α) := direct_error rfl

/-- A fault that is passed on. -/
theorem Direct.error {f : Fault} (h : Direct result) (heq : result = .error f) :
    Direct (.error f : Except Fault β) := direct_error (h.trail f heq)

theorem Direct.map (h : Direct result) (f : α → β) : Direct (result.map f) := by
  cases result with
  | error e => exact h.error rfl
  | ok a => exact direct_ok (f a)

theorem Direct.certify {result : Except Fault (α × List Char)} (h : Direct result)
    (shorter : ∀ value rest, result = .ok (value, rest) → rest.length < s.length) :
    Direct (Read.certify result shorter) := by
  cases result with
  | error e => exact h.error rfl
  | ok r => exact direct_ok _

end Steps

theorem direct_literal (word s : List Char) : Direct (literal word s) := by
  induction word generalizing s with
  | nil => exact direct_ok s
  | cons w word ih =>
    cases s with
    | nil => exact direct_here _ _
    | cons c s =>
      rw [literal]
      split
      · exact ih s
      · exact direct_next _ _

/-! ## Numbers -/

section Numbers

variable (isNegative : Bool) (significand : Nat) (exponent : Int)

theorem direct_finishFloat (rest : List Char) :
    Direct (finishFloat isNegative significand exponent rest) := by
  unfold finishFloat
  split
  · exact direct_ok _
  · exact direct_here _ _

theorem direct_readExponentDigits (shrinks : Bool) (s : List Char) :
    Direct (readExponentDigits isNegative significand exponent shrinks s) := by
  unfold readExponentDigits
  split
  · exact direct_here _ _
  split
  · split
    · exact direct_finishFloat ..
    split
    · split
      · exact direct_ok _
      · exact direct_here _ _
    · exact direct_finishFloat ..
  · exact direct_next _ _

theorem direct_readExponent (s : List Char) :
    Direct (readExponent isNegative significand exponent s) := by
  unfold readExponent
  split
  · exact direct_readExponentDigits ..
  · exact direct_readExponentDigits ..
  · exact direct_readExponentDigits ..

theorem direct_readFloatEnd (s : List Char) :
    Direct (readFloatEnd isNegative significand exponent s) := by
  unfold readFloatEnd
  split
  · exact direct_finishFloat ..
  split
  · exact direct_readExponent ..
  · exact direct_finishFloat ..

theorem direct_readFraction (s : List Char) :
    Direct (readFraction isNegative significand exponent s) := by
  unfold readFraction
  split
  · exact direct_next _ _
  split
  · exact direct_readFloatEnd ..
  · exact direct_next _ _

theorem direct_readNumberEnd (exponent : Nat) (s : List Char) :
    Direct (readNumberEnd isNegative significand exponent s) := by
  unfold readNumberEnd
  split
  · split
    · exact direct_ok _
    · exact direct_finishFloat ..
  split
  · exact direct_readFraction ..
  split
  · exact direct_readExponent ..
  split
  · exact direct_ok _
  · exact direct_finishFloat ..

theorem direct_readMagnitude (s : List Char) : Direct (readMagnitude isNegative s) := by
  unfold readMagnitude
  split
  · exact direct_here _ _
  split
  · split
    · split
      · exact direct_next _ _
      · exact direct_readNumberEnd ..
    · exact direct_readNumberEnd ..
  split
  · exact direct_readNumberEnd ..
  · exact direct_next _ _

theorem direct_readNumber (s : List Char) : Direct (readNumber s) := by
  apply Direct.certify
  unfold numberFrom
  split
  · exact direct_readMagnitude ..
  · exact direct_readMagnitude ..

end Numbers

/-! ## Texts -/

theorem direct_readHex4 (s : List Char) : Direct (readHex4 s) := by
  have hfault : ∀ s, (hexFault s).trail = [] := by
    intro s
    unfold hexFault
    split <;> rfl
  unfold readHex4
  split
  · split
    · exact direct_ok _
    · exact direct_error (hfault _)
  · exact direct_error (hfault _)

theorem direct_readPairMark (s : List Char) : Direct (readPairMark s) := by
  unfold readPairMark
  split
  · exact direct_here _ _
  · exact direct_here _ _
  · exact direct_ok _
  · exact direct_next _ _
  · exact direct_next _ _

theorem direct_readLowSurrogate (high : Nat) (s : List Char) : Direct (readLowSurrogate high s) := by
  unfold readLowSurrogate
  split
  · next hmark => exact (direct_readPairMark s).error hmark
  split
  · next hlow => exact (direct_readHex4 _).error hlow
  split
  · exact direct_ok _
  · exact direct_here _ _

theorem direct_readUnits (s : List Char) : Direct (readUnits s) := by
  unfold readUnits
  split
  · next hunit => exact (direct_readHex4 s).error hunit
  split
  · exact direct_here _ _
  split
  · exact (direct_readLowSurrogate ..).map _
  · exact direct_ok _

theorem direct_readEscape (s : List Char) : Direct (readEscape s) := by
  unfold readEscape
  split
  · exact direct_here _ _
  split
  · exact direct_ok _
  split
  · exact (direct_readUnits _).map _
  · exact direct_next _ _

theorem direct_textFrom (done s : List Char) : Direct (textFrom done s) := by
  fun_induction textFrom done s with
  | case1 => exact direct_here _ _
  | case2 => exact direct_ok _
  | case3 done s f hescape => exact (direct_readEscape s).error hescape
  | case4 _ _ _ _ _ ih => exact ih
  | case5 => exact direct_next _ _
  | case6 _ _ _ _ _ _ ih => exact ih

theorem direct_readText (s : List Char) : Direct (readText s) := (direct_textFrom [] s).certify _

/-! ## Typed values -/

theorem trail_misfitFault (expected : String) (c : Char) (s : List Char) :
    (misfitFault expected c s).trail = [] := by
  have hword : ∀ misfit word, (wordFault misfit expected word s).trail = [] := by
    intro misfit word
    unfold wordFault
    split
    · next f hf => exact (direct_literal word s).trail f hf
    · rfl
  unfold misfitFault
  split
  · exact hword _ _
  split
  · exact hword _ _
  split
  · exact hword _ _
  split
  · split
    · next f hf => exact (direct_readNumber _).trail f hf
    · rfl
  split
  · split
    · next f hf => exact (direct_readText _).trail f hf
    · rfl
  split
  · rfl
  split <;> rfl

theorem direct_readString (s : List Char) : Direct (readString s) := by
  unfold readString
  split
  · exact direct_next _ _
  split
  · exact (direct_readText _).map _
  · exact direct_error (trail_misfitFault ..)

theorem direct_readBoolean (s : List Char) : Direct (readBoolean s) := by
  unfold readBoolean
  split
  · exact direct_next _ _
  split
  · exact Direct.certify ((direct_literal ..).map _) _
  split
  · exact Direct.certify ((direct_literal ..).map _) _
  · exact direct_error (trail_misfitFault ..)

theorem direct_readInt64 (s : List Char) : Direct (readInt64 s) := by
  unfold readInt64
  split
  · exact direct_next _ _
  split
  · split
    · next hnumber => exact (direct_readNumber _).error hnumber
    split
    · exact direct_ok _
    · exact direct_here _ _
  · exact direct_error (trail_misfitFault ..)

theorem ended_cons {c : Char} {tail rest : List Char} (hc : ¬ (c = '-' ∨ isDigit c = true)) :
    Ended (c :: tail) rest := by
  intro c' hhead hnumber
  exact absurd (Option.some.inj hhead ▸ hnumber) hc

theorem SpellsString.ended {value : String} {piece rest : List Char}
    (h : SpellsString value piece) : Ended piece rest := by
  obtain ⟨content, _, rfl⟩ := h
  exact ended_cons (by decide)

/-- A value that is no text is the value at fault where a text belongs. -/
theorem failsAt_readString {value tail : List Char} (hvalue : Wellformed .value value)
    (hends : Ends tail) (hmisfit : ∀ text, ¬ SpellsString text value) :
    FailsAt [] (readString (value ++ tail)) := by
  have hnot : ∀ text rest, ¬ Delivers (readString (value ++ tail)) text rest := by
    intro text rest h
    obtain ⟨blanks, piece, hblanks, hpiece, hs⟩ := reads_readString.delivers_iff.1 h
    obtain ⟨rfl, -⟩ := hvalue.value_inj (reads_readString.wellformed hpiece) (.of_ends hends)
      hpiece.ended Blanks.nil hblanks hs
    exact hmisfit text hpiece
  obtain ⟨trail, hfails⟩ := exists_failsAt hnot
  rwa [(direct_readString _).eq_nil hfails] at hfails

/-! ## Lists -/

variable {item : (s : List Char) → Except Fault (Read α s)} {spells : α → List Char → Prop}

/-- Items that are read are counted, and the fault of the next one is told with their number. -/
theorem failsAt_readItems (hitem : Reads item spells) {isFirst : Bool} {index : Nat}
    (hfirst : (index == 0) = isFirst) {items : List α} {parts : List (List Char)}
    {before lead tail : List Char} {c : Char} (hitems : List.Forall₂ spells items parts)
    (hparts : Parts isFirst parts before) (hlead : Lead (isFirst && parts.isEmpty) lead)
    (hc : isBlank c = false) (hclosing : c ≠ ']')
    (hfault : FailsAt trail (item (c :: tail)))
    (hs : s = before ++ (lead ++ c :: tail)) :
    FailsAt (.item (index + parts.length) :: trail) (readItems item index s) := by
  induction hparts generalizing index items s with
  | nil =>
    rw [List.isEmpty_nil, Bool.and_true] at hlead
    obtain ⟨_, hstart⟩ := exists_itemStart_item hlead hc hclosing hs
    obtain ⟨f, hf, rfl⟩ := hfault
    rw [readItems, hfirst, hstart]
    simp only [within, hf]
    exact failsAt_error rfl
  | @cons isFirst lead' part more parts hlead' _ ih =>
    cases hitems with
    | @cons a _ items _ hpart hitems =>
      -- The item is read whatever follows it, and leaves the reader in front of the next lead.
      obtain ⟨d, begun, hcons, hd, hopen⟩ := (hitem.wellformed hpart).exists_eq_cons
      have hbegins : s = lead' ++ d :: (begun ++ (more ++ (lead ++ c :: tail))) := by
        rw [hs, hcons]
        simp only [List.append_assoc, List.cons_append]
      obtain ⟨_, hstart⟩ := exists_itemStart_item hlead' hd hopen hbegins
      have hread : Delivers (item (d :: (begun ++ (more ++ (lead ++ c :: tail))))) a
          (more ++ (lead ++ c :: tail)) :=
        hitem.delivers_iff.2 ⟨[], part, Blanks.nil, hpart, by rw [hcons]; rfl⟩
      obtain ⟨_, hread⟩ := hread
      rw [List.isEmpty_cons, Bool.and_false] at hlead
      have hnext : (index + 1 == 0) = false := rfl
      obtain ⟨f, hf, htrail⟩ := ih hnext hitems hlead rfl
      rw [readItems, hfirst, hstart]
      simp only [within, hread, Read.again, hf]
      apply failsAt_error
      rw [htrail, List.length_cons, Nat.add_right_comm, Nat.add_assoc]

theorem failsAt_readList (hitem : Reads item spells) {items : List α}
    {parts others : List (List Char)} {part list blanks rest : List Char}
    (hitems : List.Forall₂ spells items parts)
    (hlist : IsContainer .list (parts ++ part :: others) list) (hpart : HasBeginning .list part)
    (hfault : ∀ tail, Ends tail → FailsAt trail (item (part ++ tail))) (hblanks : Blanks blanks)
    (hs : s = blanks ++ (list ++ rest)) :
    FailsAt (.item parts.length :: trail) (readList item s) := by
  obtain ⟨inside, after, hinside, hafter, rfl⟩ := hlist
  obtain ⟨before, _, hbefore, hbehind, rfl⟩ := hinside.exists_of_append
  cases hbehind with
  | @cons _ lead _ more _ hlead hmore =>
    obtain ⟨c, begun, rfl, hc, hclosing⟩ := hpart
    have hends : Ends (more ++ (after ++ ']' :: rest)) := hmore.ends (b := .list) hafter
    have hopened : s = blanks ++ '[' :: (before ++ (lead ++ c :: (begun ++ (more ++ (after ++
        ']' :: rest))))) := by
      rw [hs]
      simp only [Bracket.opening, Bracket.closing, List.cons_append, List.append_assoc,
        List.nil_append]
    obtain ⟨_, htoken⟩ := finds_iff.2 ⟨blanks, hblanks, by decide, hopened⟩
    have hfirst : ((0 : Nat) == 0) = true := rfl
    have hfails := failsAt_readItems hitem hfirst hitems hbefore hlead hc hclosing
      (hfault _ hends) rfl
    rw [Nat.zero_add] at hfails
    rw [readList, htoken]
    simp only [if_true]
    exact hfails.map _

/-- The fault of a value that is no list is about the value itself. -/
theorem direct_readList_cons {c : Char} {blanks : List Char} (hblanks : Blanks blanks)
    (hc : isBlank c = false) (hbracket : c ≠ '[') :
    Direct (readList item (blanks ++ c :: s)) := by
  obtain ⟨_, htoken⟩ := finds_iff.2 ⟨blanks, hblanks, hc, (rfl : blanks ++ c :: s = _)⟩
  rw [readList, htoken]
  simp only [if_neg hbracket]
  exact direct_error (trail_misfitFault ..)

end RoutePolicy.Json
