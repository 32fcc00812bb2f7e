import RoutePolicy.Proofs.Text.Blank
import RoutePolicy.Route.Basic

/-!
# Router lines of patterns

A path pattern is told by writing a parameter for every `*`. From a line with such a path and a
method in brackets both are read, and collapsing the parameters gives the pattern.
-/

namespace RoutePolicy

namespace Parameters

variable {s : List Char}

/-- Writes a parameter for every `*`. -/
def expand (s : List Char) : List Char :=
  s.flatMap fun c => if c = '*' then ['{', 'p', '}'] else [c]

def BraceFree (s : List Char) : Prop := ∀ c ∈ s, c ≠ '{' ∧ c ≠ '}'

theorem expand_star (s : List Char) : expand ('*' :: s) = '{' :: 'p' :: '}' :: expand s := rfl

theorem expand_cons_of_ne {c : Char} (h : c ≠ '*') : expand (c :: s) = c :: expand s := by
  rw [expand, List.flatMap_cons, if_neg h, List.singleton_append, ← expand]

theorem mem_expand {c : Char} (h : c ∈ expand s) : c ∈ ['{', 'p', '}'] ∨ c ∈ s ∧ c ≠ '*' := by
  obtain ⟨d, hd, hc⟩ := List.mem_flatMap.1 h
  by_cases hstar : d = '*'
  · rw [if_pos hstar] at hc
    exact Or.inl hc
  · rw [if_neg hstar, List.mem_singleton] at hc
    exact Or.inr ⟨hc ▸ hd, hc ▸ hstar⟩

/-- The next brace of an expanded pattern, if there is one, is an opening one. -/
theorem afterClosing?_expand (h : BraceFree s) : afterClosing? (expand s) = none := by
  induction s with
  | nil => rfl
  | cons c s ih =>
    by_cases hstar : c = '*'
    · subst hstar
      rfl
    · have hc : c ≠ '{' ∧ c ≠ '}' := h c List.mem_cons_self
      have hs : afterClosing? (expand s) = none := ih fun d hd => h d (List.mem_cons_of_mem c hd)
      rw [expand_cons_of_ne hstar, afterClosing?, if_neg hc.1, hs, if_neg hc.2]
      rfl

theorem collapse_cons_of_ne {c : Char} (h : c ≠ '{') : collapse (c :: s) = c :: collapse s := by
  rw [collapse, if_neg h]

theorem collapse_opening {rest : List Char} (h : afterClosing? s = some rest) :
    collapse ('{' :: s) = '*' :: collapse rest := by
  rw [collapse, if_pos rfl]
  split
  · next other hother => rw [Option.some.inj (hother.symm.trans h)]
  · next hnone => cases hnone.symm.trans h

theorem collapse_expand (h : BraceFree s) : collapse (expand s) = s := by
  induction s with
  | nil => rw [expand, List.flatMap_nil, collapse]
  | cons c s ih =>
    have hfree : BraceFree s := fun d hd => h d (List.mem_cons_of_mem c hd)
    by_cases hstar : c = '*'
    · have hclosed : afterClosing? ('p' :: '}' :: expand s) = some (expand s) := by
        simp only [afterClosing?, afterClosing?_expand hfree]
        rfl
      rw [hstar, expand_star, collapse_opening hclosed, ih hfree]
    · rw [expand_cons_of_ne hstar, collapse_cons_of_ne (h c List.mem_cons_self).1, ih hfree]

end Parameters

namespace RouterLine

variable {tail method rest : List Char}

theorem readMethod?_append (hne : method ≠ []) (hword : ∀ c ∈ method, isWordChar c = true) :
    readMethod? ('[' :: (method ++ ']' :: rest)) = some method := by
  have htake : (method ++ ']' :: rest).takeWhile isWordChar = method := by
    rw [List.takeWhile_append_of_pos hword, List.takeWhile_cons_of_neg (by decide), List.append_nil]
  have hdrop : (method ++ ']' :: rest).dropWhile isWordChar = ']' :: rest := by
    rw [List.dropWhile_append_of_pos hword, List.dropWhile_cons_of_neg (by decide)]
  obtain ⟨c, word, rfl⟩ := List.exists_cons_of_ne_nil hne
  rw [readMethod?, htake, hdrop]
  rfl

theorem readHere?_append {gap : List Char} (hpath : ∀ c ∈ tail, isPathChar c = true)
    (hgapne : gap ≠ []) (hgap : ∀ c ∈ gap, isGap c = true) (hne : method ≠ [])
    (hword : ∀ c ∈ method, isWordChar c = true) :
    readHere? ('/' :: (tail ++ (gap ++ '[' :: (method ++ ']' :: rest)))) =
      some ⟨'/' :: tail, method⟩ := by
  obtain ⟨g, gaps, rfl⟩ := List.exists_cons_of_ne_nil hgapne
  have hg : isGap g = true := hgap g List.mem_cons_self
  have hstop : ¬ isPathChar g = true := by
    simp only [isGap, Bool.or_eq_true, beq_iff_eq] at hg
    rcases hg with rfl | rfl <;> decide
  have htake : (tail ++ (g :: gaps ++ '[' :: (method ++ ']' :: rest))).takeWhile isPathChar =
      tail := by
    rw [List.takeWhile_append_of_pos hpath, List.cons_append, List.takeWhile_cons_of_neg hstop,
      List.append_nil]
  have hdrop : (tail ++ (g :: gaps ++ '[' :: (method ++ ']' :: rest))).dropWhile isPathChar =
      g :: (gaps ++ '[' :: (method ++ ']' :: rest)) := by
    rw [List.dropWhile_append_of_pos hpath, List.cons_append, List.dropWhile_cons_of_neg hstop]
  have hread : readMethod? ((gaps ++ '[' :: (method ++ ']' :: rest)).dropWhile isGap) =
      some method := by
    rw [List.dropWhile_append_of_pos fun c hc => hgap c (List.mem_cons_of_mem g hc),
      List.dropWhile_cons_of_neg (by decide)]
    exact readMethod?_append hne hword
  rw [readHere?, hdrop, htake]
  simp only [hg, if_true, hread, Option.map_some]

theorem find?_append (hpath : ∀ c ∈ tail, isPathChar c = true) (hne : method ≠ [])
    (hword : ∀ c ∈ method, isWordChar c = true) :
    find? ('/' :: (tail ++ ' ' :: '[' :: (method ++ ']' :: rest))) =
      some ⟨'/' :: tail, method⟩ := by
  have hread : readHere? ('/' :: (tail ++ ([' '] ++ '[' :: (method ++ ']' :: rest)))) =
      some ⟨'/' :: tail, method⟩ :=
    readHere?_append hpath (List.cons_ne_nil ' ' []) (List.forall_mem_singleton.2 (by decide)) hne
      hword
  rw [find?, ← List.singleton_append (l := '[' :: (method ++ ']' :: rest)), hread]
  rfl

end RouterLine

end RoutePolicy
