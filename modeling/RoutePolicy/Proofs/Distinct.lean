import Mathlib.Data.Finset.Insert
import Mathlib.Data.List.Nodup
import RoutePolicy.Text.Pieces

/-!
# Laws of first occurrences

What `distinctBy` keeps: one item for every key that occurs, namely the first one that has it. So it
is told place by place (`firstsBy`), and by one pass that carries the set of the keys seen so far
(`keepUnseen`). The law that the merge rests on is `distinct_distinct_append`: repetitions may be
removed from a beginning before more items arrive.
-/

namespace RoutePolicy

variable {α β : Type} [DecidableEq β] {key : α → β}

theorem distinctBy_sublist (xs : List α) : (distinctBy key xs).Sublist xs := by
  induction xs with
  | nil => exact List.Sublist.refl []
  | cons x xs ih => exact (List.filter_sublist.trans ih).cons_cons x

theorem mem_of_mem_distinctBy {xs : List α} {x : α} (h : x ∈ distinctBy key xs) : x ∈ xs :=
  (distinctBy_sublist xs).mem h

theorem exists_mem_distinctBy (key : α → β) {xs : List α} {x : α} (h : x ∈ xs) :
    ∃ y ∈ distinctBy key xs, key y = key x := by
  induction xs with
  | nil => simp at h
  | cons z xs ih =>
    by_cases same : key x = key z
    · exact ⟨z, List.mem_cons_self, same.symm⟩
    · obtain ⟨y, hy, heq⟩ := ih ((List.mem_cons.1 h).resolve_left fun e => same (e ▸ rfl))
      have hne : key y ≠ key z := fun e => same (heq.symm.trans e)
      exact ⟨y, List.mem_cons_of_mem z (List.mem_filter.2 ⟨hy, decide_eq_true hne⟩), heq⟩

theorem mem_keys_distinctBy (key : α → β) {xs : List α} {k : β} :
    k ∈ (distinctBy key xs).map key ↔ k ∈ xs.map key := by
  constructor
  · intro h
    obtain ⟨x, hx, rfl⟩ := List.mem_map.1 h
    exact List.mem_map_of_mem (mem_of_mem_distinctBy hx)
  · intro h
    obtain ⟨x, hx, rfl⟩ := List.mem_map.1 h
    exact List.mem_map.2 (exists_mem_distinctBy key hx)

theorem nodup_keys_distinctBy (key : α → β) (xs : List α) :
    ((distinctBy key xs).map key).Nodup := by
  induction xs with
  | nil => exact List.nodup_nil
  | cons x xs ih =>
    rw [distinctBy, List.map_cons, List.nodup_cons]
    refine ⟨?_, ih.sublist (List.filter_sublist.map key)⟩
    intro h
    obtain ⟨y, hy, heq⟩ := List.mem_map.1 h
    exact of_decide_eq_true (List.mem_filter.1 hy).2 heq

theorem eq_of_mem_distinctBy {xs : List α} {x y : α} (hx : x ∈ distinctBy key xs)
    (hy : y ∈ distinctBy key xs) (h : key x = key y) : x = y :=
  List.inj_on_of_nodup_map (nodup_keys_distinctBy key xs) hx hy h

theorem distinctBy_eq_self {xs : List α} (h : (xs.map key).Nodup) : distinctBy key xs = xs := by
  induction xs with
  | nil => rfl
  | cons x xs ih =>
    rw [List.map_cons, List.nodup_cons] at h
    rw [distinctBy, ih h.2, List.filter_eq_self.2]
    intro y hy
    exact decide_eq_true fun heq => h.1 (heq ▸ List.mem_map_of_mem hy)

/-- Of a second list those items are kept whose keys do not occur in the first one. -/
theorem distinctBy_append (xs ys : List α) :
    distinctBy key (xs ++ ys) =
      distinctBy key xs ++ (distinctBy key ys).filter fun y => decide (key y ∉ xs.map key) := by
  induction xs with
  | nil => exact (List.filter_eq_self.2 fun y _ => decide_eq_true List.not_mem_nil).symm
  | cons x xs ih =>
    rw [List.cons_append, distinctBy, ih, distinctBy, List.filter_append, List.cons_append,
      List.filter_filter]
    refine congrArg _ (congrArg _ (List.filter_congr fun y _ => ?_))
    rw [List.map_cons, ← Bool.decide_and]
    exact decide_eq_decide.2 (by simp [not_or])

theorem distinctBy_snoc (xs : List α) (y : α) :
    distinctBy key (xs ++ [y]) =
      distinctBy key xs ++ if key y ∈ xs.map key then [] else [y] := by
  rw [distinctBy_append]
  by_cases h : key y ∈ xs.map key
  · rw [if_pos h]
    simp only [distinctBy, List.filter_nil, List.filter_cons, h, not_true, decide_false,
      Bool.false_eq_true, if_false]
  · rw [if_neg h]
    simp only [distinctBy, List.filter_nil, List.filter_cons, h, not_false_iff, decide_true,
      if_true]

theorem distinctBy_map {γ : Type} (f : γ → α) (xs : List γ) :
    distinctBy key (xs.map f) = (distinctBy (key ∘ f) xs).map f := by
  induction xs with
  | nil => rfl
  | cons x xs ih =>
    rw [List.map_cons, distinctBy, ih, List.filter_map]
    rfl

theorem distinctBy_congr {key' : α → β} {xs : List α} (h : ∀ x ∈ xs, key x = key' x) :
    distinctBy key xs = distinctBy key' xs := by
  induction xs with
  | nil => rfl
  | cons x xs ih =>
    have hx : key x = key' x := h x List.mem_cons_self
    have hxs : ∀ y ∈ xs, key y = key' y := fun y hy => h y (List.mem_cons_of_mem x hy)
    rw [distinctBy, distinctBy, ih hxs]
    refine congrArg _ (List.filter_congr fun y hy => ?_)
    rw [hx, hxs y (mem_of_mem_distinctBy hy)]

theorem distinctBy_distinctBy_append (xs ys : List α) :
    distinctBy key (distinctBy key xs ++ ys) = distinctBy key (xs ++ ys) := by
  rw [distinctBy_append, distinctBy_append, distinctBy_eq_self (nodup_keys_distinctBy key xs)]
  simp only [mem_keys_distinctBy]

/-! ## The place of what is kept -/

/-- The items whose key is none of the keys of the items before their place. -/
def firstsBy (key : α → β) (xs : List α) : List α :=
  (xs.zipIdx.filter fun entry => decide (key entry.1 ∉ (xs.take entry.2).map key)).map Prod.fst

/-- Whether a key is new at a place is told by the items before it, so what follows has no say. -/
theorem firstsBy_snoc (xs : List α) (y : α) :
    firstsBy key (xs ++ [y]) = firstsBy key xs ++ if key y ∈ xs.map key then [] else [y] := by
  have hbefore : xs.zipIdx.filter
        (fun entry => decide (key entry.1 ∉ ((xs ++ [y]).take entry.2).map key)) =
      xs.zipIdx.filter fun entry => decide (key entry.1 ∉ (xs.take entry.2).map key) := by
    apply List.filter_congr
    intro entry hentry
    have hplace : entry.2 ≤ xs.length := (List.snd_lt_of_mem_zipIdx hentry).le
    rw [List.take_append_of_le_length hplace]
  have hlast : (xs ++ [y]).take (0 + xs.length) = xs := by
    rw [Nat.zero_add]
    exact List.take_left
  rw [firstsBy, List.zipIdx_append, List.filter_append, List.map_append, hbefore, ← firstsBy,
    List.zipIdx_singleton, List.filter_singleton, hlast]
  by_cases h : key y ∈ xs.map key
  · simp only [h, not_true, decide_false, cond_false, if_true, List.map_nil]
  · simp only [h, not_false_iff, decide_true, cond_true, if_false, List.map_cons, List.map_nil]

theorem distinctBy_eq_firstsBy (xs : List α) : distinctBy key xs = firstsBy key xs := by
  induction xs using List.reverseRecOn with
  | nil => rfl
  | append_singleton xs y ih => rw [distinctBy_snoc, firstsBy_snoc, ih]

/-- One pass with the keys seen so far: an item is kept if its key is not among them, and its key is
among them from then on. -/
def keepUnseen (key : α → β) (seen : Finset β) : List α → List α
  | [] => []
  | x :: xs =>
    if key x ∈ seen then keepUnseen key seen xs else x :: keepUnseen key (insert (key x) seen) xs

/-- The pass keeps the first occurrences of the keys that it has not seen when it begins. -/
theorem keepUnseen_eq_filter (seen : Finset β) (xs : List α) :
    keepUnseen key seen xs = (distinctBy key xs).filter fun x => decide (key x ∉ seen) := by
  induction xs generalizing seen with
  | nil => rfl
  | cons x xs ih =>
    rw [keepUnseen, distinctBy, List.filter_cons, List.filter_filter]
    by_cases hx : key x ∈ seen
    · rw [if_pos hx, ih, if_neg (by simpa using hx)]
      apply List.filter_congr
      intro y _
      have hne : key y ∉ seen → key y ≠ key x := fun hy heq => hy (heq ▸ hx)
      rw [← Bool.decide_and]
      exact decide_eq_decide.2 ⟨fun hy => ⟨hy, hne hy⟩, fun hy => hy.1⟩
    · rw [if_neg hx, ih, if_pos (by simpa using hx)]
      refine congrArg _ (List.filter_congr fun y _ => ?_)
      rw [← Bool.decide_and]
      exact decide_eq_decide.2 (by rw [Finset.mem_insert, not_or, and_comm])

theorem keepUnseen_empty (xs : List α) : keepUnseen key ∅ xs = distinctBy key xs := by
  rw [keepUnseen_eq_filter, List.filter_eq_self]
  exact fun x _ => decide_eq_true (Finset.notMem_empty _)

theorem distinctBy_distinctBy (xs : List α) :
    distinctBy key (distinctBy key xs) = distinctBy key xs :=
  distinctBy_eq_self (nodup_keys_distinctBy key xs)

/-! ## Whole items as keys -/

variable {xs ys : List β}

@[simp] theorem mem_distinct {x : β} : x ∈ distinct xs ↔ x ∈ xs := by
  simpa only [distinct, List.map_id] using mem_keys_distinctBy id (k := x)

theorem nodup_distinct (xs : List β) : (distinct xs).Nodup := by
  simpa only [distinct, List.map_id] using nodup_keys_distinctBy id xs

theorem distinct_eq_self (h : xs.Nodup) : distinct xs = xs :=
  distinctBy_eq_self (by rwa [List.map_id])

theorem distinct_distinct_append (xs ys : List β) :
    distinct (distinct xs ++ ys) = distinct (xs ++ ys) :=
  distinctBy_distinctBy_append xs ys

theorem map_key_distinctBy (key : α → β) (xs : List α) :
    (distinctBy key xs).map key = distinct (xs.map key) := by
  rw [distinct, distinctBy_map]
  rfl

theorem distinct_eq_nil_iff : distinct xs = [] ↔ xs = [] := by
  simp only [List.eq_nil_iff_forall_not_mem, mem_distinct]

theorem distinct_perm (h : ∀ x, x ∈ xs ↔ x ∈ ys) : (distinct xs).Perm (distinct ys) := by
  apply (List.perm_ext_iff_of_nodup (nodup_distinct xs) (nodup_distinct ys)).2
  intro x
  rw [mem_distinct, mem_distinct, h x]

/-! ## Texts -/

/-- Of some texts those are kept whose key no earlier text has, and one pass with the set of the
keys seen so far finds them. Their keys are all keys that occur, once each, so a second removal
changes nothing, and a beginning may be cleaned before more texts follow. -/
theorem distinctTexts_keeps_firsts (ignoreCase : Bool) :
    (∀ items, distinctTexts ignoreCase items = firstsBy (textKey ignoreCase) items ∧
      distinctTexts ignoreCase items = keepUnseen (textKey ignoreCase) ∅ items ∧
      (distinctTexts ignoreCase items).Sublist items ∧
      ((distinctTexts ignoreCase items).map (textKey ignoreCase)).Nodup ∧
      (∀ k, k ∈ (distinctTexts ignoreCase items).map (textKey ignoreCase) ↔
        k ∈ items.map (textKey ignoreCase)) ∧
      distinctTexts ignoreCase (distinctTexts ignoreCase items) = distinctTexts ignoreCase items) ∧
    ∀ xs ys, distinctTexts ignoreCase (xs ++ ys) =
      distinctTexts ignoreCase (distinctTexts ignoreCase xs ++ ys) := by
  constructor
  · intro items
    refine ⟨distinctBy_eq_firstsBy items, (keepUnseen_empty items).symm, distinctBy_sublist items,
      nodup_keys_distinctBy _ items, fun k => mem_keys_distinctBy _, distinctBy_distinctBy items⟩
  · intro xs ys
    exact (distinctBy_distinctBy_append xs ys).symm

example :
    distinctTexts true ["Get", "É", "GET", "post", "é", "POST"] = ["Get", "É", "post", "é"] := by
  decide +kernel

end RoutePolicy
