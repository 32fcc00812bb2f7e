import RoutePolicy.Proofs.Distinct
import RoutePolicy.Proofs.Text.Pieces
import RoutePolicy.Route.Fragments

/-!
# What a role key tells

A role signature stands for a set of roles: it neither depends on order or repetition nor forgets a
role, as long as roles are non-empty and hold no comma. Of a role key the two signatures can be told
apart when a hyphen stands in none of the authorized roles, or in none of the forbidden ones; with
hyphens on both sides two pairs of role sets may share one key.
-/

namespace RoutePolicy.Rule

open Text (CommaFree)

/-- The same roles, perhaps in another order or with other repetitions. -/
def SameRoles (left right : List String) : Prop := ∀ role, role ∈ left ↔ role ∈ right

theorem SameRoles.symm {left right : List String} (h : SameRoles left right) :
    SameRoles right left :=
  fun role => (h role).symm

theorem SameRoles.trans {first second third : List String} (h : SameRoles first second)
    (h' : SameRoles second third) : SameRoles first third :=
  fun role => (h role).trans (h' role)

/-- Roles that a role line can list: not empty, and without the comma that parts them. -/
def Listable (roles : List String) : Prop := ∀ role ∈ roles, role ≠ "" ∧ CommaFree role

/-- The roles in the order in which a signature writes them. -/
def signatureRoles (roles : List String) : List String :=
  (distinct roles).mergeSort fun a b => decide (a ≤ b)

theorem mem_signatureRoles {roles : List String} {role : String} :
    role ∈ signatureRoles roles ↔ role ∈ roles := by
  rw [signatureRoles, List.mem_mergeSort, mem_distinct]

theorem Listable.signatureRoles {roles : List String} (h : Listable roles) :
    Listable (signatureRoles roles) :=
  fun role hrole => h role (mem_signatureRoles.1 hrole)

theorem pairwise_signatureRoles (roles : List String) :
    (signatureRoles roles).Pairwise fun a b => decide (a ≤ b) = true := by
  apply List.pairwise_mergeSort
  · intro a b c hab hbc
    exact decide_eq_true (String.le_trans (of_decide_eq_true hab) (of_decide_eq_true hbc))
  · intro a b
    rw [Bool.or_eq_true]
    exact (String.le_total a b).imp decide_eq_true decide_eq_true

/-- Sorting forgets the order, so the written roles depend on the set of roles alone. -/
theorem signatureRoles_congr {left right : List String} (h : SameRoles left right) :
    signatureRoles left = signatureRoles right := by
  have perm : (signatureRoles left).Perm (signatureRoles right) :=
    (List.mergeSort_perm _ _).trans ((distinct_perm h).trans (List.mergeSort_perm _ _).symm)
  refine perm.eq_of_pairwise ?_ (pairwise_signatureRoles left) (pairwise_signatureRoles right)
  intro a b _ _ hab hba
  exact String.le_antisymm (of_decide_eq_true hab) (of_decide_eq_true hba)

theorem roleSignature_congr {left right : List String} (h : SameRoles left right) :
    roleSignature left = roleSignature right :=
  congrArg Text.joinCommas (signatureRoles_congr h)

theorem sameRoles_of_roleSignature {left right : List String} (hleft : Listable left)
    (hright : Listable right) (h : roleSignature left = roleSignature right) :
    SameRoles left right := by
  have heq : signatureRoles left = signatureRoles right :=
    Text.joinCommas_injective h hleft.signatureRoles hright.signatureRoles
  intro role
  rw [← mem_signatureRoles, heq, mem_signatureRoles]

theorem roleKeyOf_congr {a a' f f' : List String} (ha : SameRoles a a') (hf : SameRoles f f') :
    roleKeyOf a f = roleKeyOf a' f' := by
  rw [roleKeyOf, roleSignature_congr ha, roleSignature_congr hf]
  rfl

/-! ## Reading a key back -/

/-- Roles none of which holds the character that parts the two signatures of a key. -/
def HyphenFree (roles : List String) : Prop := ∀ role ∈ roles, '-' ∉ role.toList

theorem HyphenFree.not_mem_roleSignature {roles : List String} (h : HyphenFree roles) :
    '-' ∉ (roleSignature roles).toList := by
  intro hmem
  rcases Text.mem_joinCommas hmem with hc | ⟨role, hrole, hc⟩
  · exact absurd hc (by decide)
  · exact h role (mem_signatureRoles.1 hrole) hc

theorem toList_roleKeyOf (a f : List String) :
    (roleKeyOf a f).toList = '+' :: ((roleSignature a).toList ++ '-' :: (roleSignature f).toList) := by
  rw [roleKeyOf, String.toList_append, String.toList_append, String.toList_append,
    List.append_assoc, List.append_assoc]
  rfl

theorem split_at_first {separator : Char} {x x' z z' : List Char} (hx : separator ∉ x)
    (hx' : separator ∉ x') (h : x ++ separator :: z = x' ++ separator :: z') : x = x' ∧ z = z' := by
  have hcut := congrArg (List.splitOn separator) h
  rw [List.splitOn_append_cons_self_of_not_mem hx, List.splitOn_append_cons_self_of_not_mem hx',
    List.cons.injEq] at hcut
  have heq := hcut.1
  subst heq
  exact ⟨rfl, (List.cons.inj (List.append_cancel_left h)).2⟩

theorem split_at_last {separator : Char} {x x' z z' : List Char} (hz : separator ∉ z)
    (hz' : separator ∉ z') (h : x ++ separator :: z = x' ++ separator :: z') : x = x' ∧ z = z' := by
  have hback := congrArg List.reverse h
  simp only [List.reverse_append, List.reverse_cons, List.append_assoc, List.singleton_append]
    at hback
  have hparts := split_at_first (by rwa [List.mem_reverse]) (by rwa [List.mem_reverse]) hback
  exact ⟨List.reverse_injective hparts.2, List.reverse_injective hparts.1⟩

theorem roleSignatures_of_roleKeyOf {a a' f f' : List String} (h : roleKeyOf a f = roleKeyOf a' f')
    (free : (HyphenFree a ∧ HyphenFree a') ∨ (HyphenFree f ∧ HyphenFree f')) :
    roleSignature a = roleSignature a' ∧ roleSignature f = roleSignature f' := by
  have hlist := congrArg String.toList h
  rw [toList_roleKeyOf, toList_roleKeyOf, List.cons_inj_right] at hlist
  have hparts : (roleSignature a).toList = (roleSignature a').toList ∧
      (roleSignature f).toList = (roleSignature f').toList := by
    rcases free with ⟨ha, ha'⟩ | ⟨hf, hf'⟩
    · exact split_at_first ha.not_mem_roleSignature ha'.not_mem_roleSignature hlist
    · exact split_at_last hf.not_mem_roleSignature hf'.not_mem_roleSignature hlist
  exact ⟨String.toList_inj.1 hparts.1, String.toList_inj.1 hparts.2⟩

theorem sameRoles_of_roleKeyOf {a a' f f' : List String} (ha : Listable a) (ha' : Listable a')
    (hf : Listable f) (hf' : Listable f') (h : roleKeyOf a f = roleKeyOf a' f')
    (free : (HyphenFree a ∧ HyphenFree a') ∨ (HyphenFree f ∧ HyphenFree f')) :
    SameRoles a a' ∧ SameRoles f f' := by
  obtain ⟨hsa, hsf⟩ := roleSignatures_of_roleKeyOf h free
  exact ⟨sameRoles_of_roleSignature ha ha' hsa, sameRoles_of_roleSignature hf hf' hsf⟩

/-- Where no authorized role holds a hyphen, rules have one key exactly if they name the same roles
on both sides. The key sees neither order nor repetition there, and everything else. -/
theorem roleKey_eq_iff_sameRoles {r r' : Rule} (ha : Listable r.authorizedRoles)
    (ha' : Listable r'.authorizedRoles) (hf : Listable r.forbiddenRoles)
    (hf' : Listable r'.forbiddenRoles) (free : HyphenFree r.authorizedRoles)
    (free' : HyphenFree r'.authorizedRoles) :
    r.roleKey = r'.roleKey ↔
      SameRoles r.authorizedRoles r'.authorizedRoles ∧
        SameRoles r.forbiddenRoles r'.forbiddenRoles := by
  constructor
  · intro h
    exact sameRoles_of_roleKeyOf ha ha' hf hf' h (.inl ⟨free, free'⟩)
  · rintro ⟨hauthorized, hforbidden⟩
    exact roleKeyOf_congr hauthorized hforbidden

/-- Forbidden roles may hold hyphens, and be nothing else. -/
theorem roleKey_eq_iff_of_hyphens :
    let r : Rule := { authorizedRoles := ["b", "a", "b"], forbiddenRoles := ["x-y", "-"] }
    let same : Rule := { authorizedRoles := ["a", "b"], forbiddenRoles := ["-", "x-y", "-"] }
    let other : Rule := { authorizedRoles := ["a", "b"], forbiddenRoles := ["-", "-y", "x"] }
    r.roleKey = same.roleKey ∧ r.roleKey ≠ other.roleKey := by
  intro r same other
  have legible : ∀ rule ∈ [r, same, other], Listable rule.authorizedRoles ∧
      Listable rule.forbiddenRoles ∧ HyphenFree rule.authorizedRoles := by
    unfold Listable HyphenFree CommaFree
    decide
  obtain ⟨ha, hf, free⟩ := legible r (by simp)
  obtain ⟨hsa, hsf, hsfree⟩ := legible same (by simp)
  obtain ⟨hoa, hof, hofree⟩ := legible other (by simp)
  constructor
  · refine (roleKey_eq_iff_sameRoles ha hsa hf hsf free hsfree).2 ⟨fun role => ?_, fun role => ?_⟩
    · simp [r, same]
      tauto
    · simp [r, same]
      tauto
  · intro h
    have hforbidden := ((roleKey_eq_iff_sameRoles ha hoa hf hof free hofree).1 h).2
    exact absurd ((hforbidden "x").2 (by decide)) (by decide)

end RoutePolicy.Rule
