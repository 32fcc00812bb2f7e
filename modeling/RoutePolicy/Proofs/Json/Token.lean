import RoutePolicy.Json.Basic

/-!
# Tokens behind blanks

Where a token is looked for, the blanks before it do not matter, and the token found is the first
character that is no blank. A word is read exactly where it stands.
-/

namespace RoutePolicy.Json

open Text (Read)

def Blanks (s : List Char) : Prop := ∀ c ∈ s, isBlank c = true

theorem Blanks.nil : Blanks [] := fun _ h => absurd h List.not_mem_nil

theorem Blanks.cons {c : Char} {s : List Char} (hs : Blanks s) (hc : isBlank c = true) :
    Blanks (c :: s) := by
  intro d hd
  rcases List.mem_cons.1 hd with rfl | hd
  · exact hc
  · exact hs d hd

theorem Blanks.append {s t : List Char} (hs : Blanks s) (ht : Blanks t) : Blanks (s ++ t) := by
  intro c hc
  exact (List.mem_append.1 hc).elim (hs c) (ht c)

variable {s : List Char}

theorem token?_cons_of_blank {c : Char} (h : isBlank c = true) :
    token? (c :: s) = (token? s).map (Read.cons c) := if_pos h

theorem token?_cons_of_not_blank {c : Char} (h : isBlank c = false) :
    token? (c :: s) = some (.one c c s) := by
  rw [token?, if_neg (by rw [h]; exact Bool.false_ne_true)]

/-- The token `c` is found, and `rest` stands behind it. -/
def Finds (s : List Char) (c : Char) (rest : List Char) : Prop :=
  ∃ shorter, token? s = some ⟨c, rest, shorter⟩

theorem finds_of_eq {token : Read Char s} (h : token? s = some token) :
    Finds s token.value token.rest :=
  ⟨token.shorter, h⟩

theorem finds_iff {c : Char} {rest : List Char} :
    Finds s c rest ↔ ∃ blanks, Blanks blanks ∧ isBlank c = false ∧ s = blanks ++ c :: rest := by
  constructor
  · rintro ⟨shorter, h⟩
    induction s with
    | nil => cases h
    | cons d s ih =>
      by_cases hd : isBlank d = true
      · rw [token?_cons_of_blank hd] at h
        obtain ⟨⟨_, _, inner⟩, hinner, heq⟩ := Option.map_eq_some_iff.1 h
        obtain ⟨rfl, rfl⟩ := Read.mk.inj heq
        obtain ⟨blanks, hblanks, hc, hs⟩ := ih inner hinner
        exact ⟨d :: blanks, hblanks.cons hd, hc, congrArg (d :: ·) hs⟩
      · rw [Bool.not_eq_true] at hd
        rw [token?_cons_of_not_blank hd] at h
        obtain ⟨rfl, rfl⟩ := Read.mk.inj (Option.some.inj h)
        exact ⟨[], Blanks.nil, hd, rfl⟩
  · rintro ⟨blanks, hblanks, hc, rfl⟩
    induction blanks with
    | nil => exact ⟨_, token?_cons_of_not_blank hc⟩
    | cons b blanks ih =>
      obtain ⟨shorter, h⟩ := ih fun d hd => hblanks d (List.mem_cons_of_mem b hd)
      have hstep := token?_cons_of_blank (s := blanks ++ c :: rest) (hblanks b List.mem_cons_self)
      exact ⟨Nat.lt_succ_of_lt shorter, hstep.trans (congrArg (Option.map (Read.cons b)) h)⟩

theorem Finds.unique {c c' : Char} {rest rest' : List Char} (h : Finds s c rest)
    (h' : Finds s c' rest') : c = c' ∧ rest = rest' := by
  obtain ⟨_, h⟩ := h
  obtain ⟨_, h'⟩ := h'
  exact Read.mk.inj (Option.some.inj (h.symm.trans h'))

theorem literal_eq_ok_iff {word rest : List Char} :
    literal word s = .ok rest ↔ s = word ++ rest := by
  induction word generalizing s with
  | nil => rw [literal, Except.ok.injEq, List.nil_append]
  | cons w word ih =>
    cases s with
    | nil =>
      simp [literal]
    | cons c s =>
      rw [literal, List.cons_append, List.cons.injEq]
      by_cases hc : c = w
      · rw [if_pos hc, ih, and_iff_right hc]
      · rw [if_neg hc]
        exact iff_of_false (by simp) fun h => hc h.1

end RoutePolicy.Json
