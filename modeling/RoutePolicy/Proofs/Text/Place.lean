import Mathlib.Data.List.Basic

/-!
# The first place of a kind in a text

A place cuts a text in two, and its kind may depend on both parts. A search that goes through a text
character by character finds the first place of the kind it looks for: the one with the shortest
part before it. There is at most one such place, and there is one as soon as there is any place of
the kind.
-/

namespace RoutePolicy.Text

variable {kind : List Char → List Char → Prop} {s before rest : List Char} {c : Char}

/-- The place between `before` and `rest` is the first one of its kind in `s`. -/
structure FirstPlace (kind : List Char → List Char → Prop) (s before rest : List Char) : Prop where
  text : before ++ rest = s
  isKind : kind before rest
  first : ∀ before' rest', before' ++ rest' = s → kind before' rest' →
    before.length ≤ before'.length

theorem FirstPlace.unique {before' rest' : List Char} (h : FirstPlace kind s before rest)
    (h' : FirstPlace kind s before' rest') : before = before' ∧ rest = rest' := by
  have hlength : before.length = before'.length :=
    Nat.le_antisymm (h.first _ _ h'.text h'.isKind) (h'.first _ _ h.text h.isKind)
  exact List.append_inj (h.text.trans h'.text.symm) hlength

/-- The start of a text is its first place of a kind, or the first place is that of the text behind
the first character. -/
theorem firstPlace_cons :
    FirstPlace kind (c :: s) before rest ↔
      (before = [] ∧ rest = c :: s ∧ kind [] (c :: s)) ∨
        (¬ kind [] (c :: s) ∧ ∃ before', before = c :: before' ∧
          FirstPlace (fun b => kind (c :: b)) s before' rest) := by
  constructor
  · intro h
    cases before with
    | nil =>
      have hrest : rest = c :: s := h.text
      exact Or.inl ⟨rfl, hrest, hrest ▸ h.isKind⟩
    | cons d before =>
      obtain ⟨rfl, htext⟩ := List.cons.inj h.text
      have hstart : ¬ kind [] (d :: s) := by
        intro hkind
        exact absurd (h.first [] (d :: s) rfl hkind) (Nat.not_succ_le_zero _)
      refine Or.inr ⟨hstart, before, rfl, htext, h.isKind, ?_⟩
      intro before' rest' htext' hkind
      exact Nat.le_of_succ_le_succ (h.first (d :: before') rest' (congrArg _ htext') hkind)
  · rintro (⟨rfl, rfl, hkind⟩ | ⟨hstart, before, rfl, h⟩)
    · exact ⟨rfl, hkind, fun _ _ _ _ => Nat.zero_le _⟩
    · refine ⟨congrArg _ h.text, h.isKind, ?_⟩
      intro before' rest' htext hkind
      cases before' with
      | nil => exact absurd (htext ▸ hkind) hstart
      | cons d before' =>
        obtain ⟨rfl, htail⟩ := List.cons.inj htext
        exact Nat.succ_le_succ (h.first before' rest' htail hkind)

/-! ## Searching

A search for a first place looks at the start of the text and goes on behind the first character
where the start is not of the kind. -/

variable {found : List Char → Prop}

theorem exists_firstPlace_of_start (h : kind [] s) :
    (∃ before rest, FirstPlace kind s before rest ∧ found rest) ↔ found s := by
  have hstart : FirstPlace kind s [] s := ⟨rfl, h, fun _ _ _ _ => Nat.zero_le _⟩
  constructor
  · rintro ⟨before, rest, hfirst, hfound⟩
    rwa [(hstart.unique hfirst).2]
  · intro hfound
    exact ⟨[], s, hstart, hfound⟩

theorem exists_firstPlace_cons (h : ¬ kind [] (c :: s)) :
    (∃ before rest, FirstPlace kind (c :: s) before rest ∧ found rest) ↔
      ∃ before rest, FirstPlace (fun b => kind (c :: b)) s before rest ∧ found rest := by
  simp only [firstPlace_cons, h, and_false, not_false_eq_true, true_and, false_or]
  constructor
  · rintro ⟨_, rest, ⟨before, rfl, hfirst⟩, hfound⟩
    exact ⟨before, rest, hfirst, hfound⟩
  · rintro ⟨before, rest, hfirst, hfound⟩
    exact ⟨c :: before, rest, ⟨before, rfl, hfirst⟩, hfound⟩

theorem exists_firstPlace (htext : before ++ rest = s) (h : kind before rest) :
    ∃ before' rest', FirstPlace kind s before' rest' := by
  -- on the part before the place; what the start has to satisfy changes with each character passed
  induction before generalizing kind s with
  | nil => exact ⟨[], rest, htext, h, fun _ _ _ _ => Nat.zero_le _⟩
  | cons c before ih =>
    subst htext
    by_cases hstart : kind [] (c :: (before ++ rest))
    · exact ⟨[], _, firstPlace_cons.2 (Or.inl ⟨rfl, rfl, hstart⟩)⟩
    · obtain ⟨before', rest', hfirst⟩ :
          ∃ before' rest', FirstPlace (fun b => kind (c :: b)) (before ++ rest) before' rest' :=
        ih rfl h
      exact ⟨c :: before', rest', firstPlace_cons.2 (Or.inr ⟨hstart, before', rfl, hfirst⟩)⟩

end RoutePolicy.Text
