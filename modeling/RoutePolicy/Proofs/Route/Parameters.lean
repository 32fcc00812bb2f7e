import RoutePolicy.Proofs.Route.RouterLine

/-!
# What is left of the braces

Collapsing takes out every closing brace that comes behind an opening one: up to the next opening
brace there is none left, since the last of them ended the parameter, and the same holds from there
on. So no opening brace of a collapsed path is closed, however the braces of the path were nested.
-/

namespace RoutePolicy.Parameters

variable {s rest : List Char}

/-- No closing brace comes before the next opening one. -/
def Unclosed (s : List Char) : Prop := '}' ∉ s.takeWhile (· != '{')

theorem unclosed_cons_of_ne {c : Char} (h : c ≠ '{') :
    Unclosed (c :: s) ↔ c ≠ '}' ∧ Unclosed s := by
  have htake : (c :: s).takeWhile (· != '{') = c :: s.takeWhile (· != '{') :=
    List.takeWhile_cons_of_pos (by simpa using h)
  rw [Unclosed, htake, List.mem_cons, not_or, ne_comm]
  rfl

theorem afterClosing?_eq_none_iff : afterClosing? s = none ↔ Unclosed s := by
  induction s with
  | nil => exact iff_of_true rfl List.not_mem_nil
  | cons c s ih =>
    by_cases hopen : c = '{'
    · subst hopen
      exact iff_of_true rfl List.not_mem_nil
    · rw [afterClosing?, if_neg hopen, Option.or_eq_none_iff, ih, unclosed_cons_of_ne hopen,
        and_comm]
      by_cases hclose : c = '}'
      · simp [hclose]
      · simp [hclose]

/-- The last closing brace before the next opening one is the one that counts. -/
theorem unclosed_of_afterClosing? (h : afterClosing? s = some rest) : Unclosed rest := by
  induction s generalizing rest with
  | nil => cases h
  | cons c s ih =>
    rw [afterClosing?] at h
    split at h
    · cases h
    · rcases Option.or_eq_some_iff.1 h with h | ⟨hnone, h⟩
      · exact ih h
      · split at h
        · rw [← Option.some.inj h]
          exact afterClosing?_eq_none_iff.1 hnone
        · cases h

theorem mem_of_afterClosing? (h : afterClosing? s = some rest) {c : Char} (hc : c ∈ rest) :
    c ∈ s := by
  induction s with
  | nil => cases h
  | cons d s ih =>
    rw [afterClosing?] at h
    split at h
    · cases h
    · rcases Option.or_eq_some_iff.1 h with h | ⟨-, h⟩
      · exact List.mem_cons_of_mem d (ih h)
      · split at h
        · rw [Option.some.inj h]
          exact List.mem_cons_of_mem d hc
        · cases h

/-- Collapsing brings in stars and nothing else. -/
theorem mem_collapse {c : Char} (h : c ∈ collapse s) : c = '*' ∨ c ∈ s := by
  fun_induction collapse s with
  | case1 => exact absurd h List.not_mem_nil
  | case2 s rest hrest ih =>
    rcases List.mem_cons.1 h with h | h
    · exact .inl h
    · exact (ih h).imp_right fun hc => List.mem_cons_of_mem '{' (mem_of_afterClosing? hrest hc)
  | case3 s _ ih =>
    rcases List.mem_cons.1 h with rfl | h
    · exact .inr List.mem_cons_self
    · exact (ih h).imp_right (List.mem_cons_of_mem '{')
  | case4 d s hd ih =>
    rcases List.mem_cons.1 h with rfl | h
    · exact .inr List.mem_cons_self
    · exact (ih h).imp_right (List.mem_cons_of_mem d)

theorem closing_not_mem_collapse (h : Unclosed s) : '}' ∉ collapse s := by
  fun_induction collapse s with
  | case1 => exact List.not_mem_nil
  | case2 s rest hrest ih =>
    have hbehind : '}' ∉ collapse rest := ih (unclosed_of_afterClosing? hrest)
    simpa using hbehind
  | case3 s hnone ih =>
    have hbehind : '}' ∉ collapse s := ih (afterClosing?_eq_none_iff.1 hnone)
    simpa using hbehind
  | case4 c s hc ih =>
    obtain ⟨hclose, hs⟩ := (unclosed_cons_of_ne hc).1 h
    have hbehind : '}' ∉ collapse s := ih hs
    simpa [hclose, eq_comm] using hbehind

/-- Behind an opening brace of a collapsed path there is no closing one. -/
theorem closing_not_mem_of_collapse_eq {before behind : List Char}
    (h : collapse s = before ++ '{' :: behind) : '}' ∉ behind := by
  fun_induction collapse s generalizing before with
  | case1 => exact absurd (h ▸ List.mem_append_right before List.mem_cons_self) List.not_mem_nil
  | case2 s rest hrest ih =>
    have hclear := closing_not_mem_collapse (unclosed_of_afterClosing? hrest)
    cases before with
    | nil => cases (List.cons.inj h).1
    | cons c before =>
      rw [(List.cons.inj h).2] at hclear
      exact fun hmem => hclear (List.mem_append_right before (List.mem_cons_of_mem '{' hmem))
  | case3 s hnone ih =>
    have hclear := closing_not_mem_collapse (afterClosing?_eq_none_iff.1 hnone)
    cases before with
    | nil => rwa [(List.cons.inj h).2] at hclear
    | cons c before => exact ih (List.cons.inj h).2
  | case4 c s hc ih =>
    cases before with
    | nil => exact absurd (List.cons.inj h).1 hc
    | cons d before => exact ih (List.cons.inj h).2

example : collapse "/a\x7d/\x7bb/\x7bc\x7bd\x7d\x7d/\x7be".toList =
    "/a\x7d/\x7bb/\x7bc*/\x7be".toList := by decide +kernel

end RoutePolicy.Parameters
