import RoutePolicy.Proofs.Rule.RoleKey
import RoutePolicy.Proofs.Text.CommaList
import RoutePolicy.Route.Basic

/-!
# The roles of a role line

Whatever a role line holds, the roles read from it are non-empty, trimmed and free of commas. Such
roles joined with commas and spaces are a line from which they are read back.
-/

namespace RoutePolicy

open Rule (Listable)

theorem mem_listedRoles {line role : String} :
    role ∈ listedRoles line ↔
      ∃ piece ∈ line.toList.splitOn ',', Text.trim piece = role.toList ∧ role ≠ "" :=
  Text.mem_commaEntries

theorem listable_listedRoles (line : String) : Listable (listedRoles line) := by
  intro role hrole
  obtain ⟨-, -, -, hne⟩ := mem_listedRoles.1 hrole
  exact ⟨hne, Text.commaFree_of_mem_commaEntries (fun _ => Text.mem_of_mem_trim) hrole⟩

theorem tight_of_mem_listedRoles {line role : String} (h : role ∈ listedRoles line) :
    Text.Tight role.toList := by
  obtain ⟨piece, -, htrim, -⟩ := mem_listedRoles.1 h
  rw [← htrim]
  exact Text.tight_trim piece

/-- Between its commas the text has an entry that is not blank. -/
def HasEntry (s : List Char) : Prop := ∃ entry ∈ s.splitOn ',', ¬ Text.Blank entry

theorem hasEntry_iff {s : List Char} :
    HasEntry s ↔ ∃ c ∈ s, Text.isBlank c = false ∧ c ≠ ',' := by
  simp only [HasEntry, Text.Blank, not_forall, Bool.not_eq_true]
  constructor
  · rintro ⟨entry, hentry, c, hc, hblank⟩
    have hcomma : c ≠ ',' := by
      rintro rfl
      exact Text.not_mem_of_mem_splitOn hentry hc
    exact ⟨c, (Text.exists_mem_splitOn_iff hcomma).1 ⟨entry, hentry, hc⟩, hblank, hcomma⟩
  · rintro ⟨c, hc, hblank, hcomma⟩
    obtain ⟨entry, hentry, hmem⟩ := (Text.exists_mem_splitOn_iff hcomma).2 hc
    exact ⟨entry, hentry, c, hmem, hblank⟩

-- a test of the characters of the text; without it all characters there are would be searched
instance (s : List Char) : Decidable (HasEntry s) :=
  decidable_of_iff (s.any fun c => !Text.isBlank c && c != ',') (by simp [hasEntry_iff])

theorem hasEntry_trim_iff {s : List Char} : HasEntry (Text.trim s) ↔ HasEntry s := by
  rw [hasEntry_iff, hasEntry_iff]
  refine exists_congr fun c => and_congr_left fun h => ?_
  exact Text.mem_trim_iff h.1

/-- A joined list has an entry if one of its parts has one. -/
theorem hasEntry_intercalate_iff {parts : List (List Char)} :
    HasEntry ([','].intercalate parts) ↔ ∃ part ∈ parts, HasEntry part := by
  simp only [hasEntry_iff]
  constructor
  · rintro ⟨c, hc, h⟩
    obtain ⟨part, hpart, hmem⟩ := (Text.mem_intercalate h.2).1 hc
    exact ⟨part, hpart, c, hmem, h⟩
  · rintro ⟨part, hpart, c, hc, h⟩
    exact ⟨c, (Text.mem_intercalate h.2).2 ⟨part, hpart, hc⟩, h⟩

theorem listedRoles_eq_nil_iff {line : String} : listedRoles line = [] ↔ ¬ HasEntry line.toList := by
  simp only [listedRoles, List.map_eq_nil_iff, List.filter_eq_nil_iff, List.forall_mem_map,
    decide_eq_true_eq, not_not, Text.trim_eq_nil_iff, HasEntry, not_exists, not_and]

theorem parseRoles_of_ne_nil {line default : String} (h : listedRoles line ≠ []) :
    parseRoles line default = listedRoles line := by
  unfold parseRoles
  split
  · next hnil => exact absurd hnil h
  · rfl

theorem parseRoles_of_eq_nil {line default : String} (h : listedRoles line = [])
    (hdefault : default ≠ "") : parseRoles line default = [default] := by
  rw [parseRoles, h]
  exact if_neg hdefault

/-- With an empty default the roles are those that the line lists. -/
theorem parseRoles_empty (line : String) : parseRoles line "" = listedRoles line := by
  by_cases h : listedRoles line = []
  · rw [parseRoles, h]
    rfl
  · exact parseRoles_of_ne_nil h

theorem listable_parseRoles {line default : String} (h : Text.CommaFree default) :
    Listable (parseRoles line default) := by
  by_cases hnil : listedRoles line = []
  · rw [parseRoles, hnil]
    intro role hrole
    by_cases hdefault : default = ""
    · rw [if_pos hdefault] at hrole
      exact absurd hrole List.not_mem_nil
    · rw [if_neg hdefault, List.mem_singleton] at hrole
      rw [hrole]
      exact ⟨hdefault, h⟩
  · rw [parseRoles_of_ne_nil hnil]
    exact listable_listedRoles line

theorem toList_intercalate_comma_space (role : String) (roles : List String) :
    (", ".intercalate (role :: roles)).toList =
      [','].intercalate (role.toList :: roles.map fun other => ' ' :: other.toList) := by
  rw [String.toList_intercalate, List.map_cons, Text.intercalate_cons, Text.intercalate_cons,
    List.flatMap_map, List.flatMap_map]
  rfl

theorem listedRoles_intercalate {roles : List String} (h : Listable roles)
    (htight : ∀ role ∈ roles, Text.Tight role.toList) :
    listedRoles (", ".intercalate roles) = roles := by
  cases roles with
  | nil => rfl
  | cons role roles =>
    have hcut : (", ".intercalate (role :: roles)).toList.splitOn ',' =
        role.toList :: roles.map fun other => ' ' :: other.toList := by
      rw [toList_intercalate_comma_space]
      apply List.splitOn_intercalate
      · intro piece hpiece
        rcases List.mem_cons.1 hpiece with rfl | hpiece
        · exact (h role List.mem_cons_self).2
        · obtain ⟨other, hother, rfl⟩ := List.mem_map.1 hpiece
          intro hcomma
          rcases List.mem_cons.1 hcomma with hspace | hcomma
          · exact absurd hspace (by decide)
          · exact (h other (List.mem_cons_of_mem role hother)).2 hcomma
      · exact List.cons_ne_nil _ _
    have htrim : (role.toList :: roles.map fun other => ' ' :: other.toList).map Text.trim =
        (role :: roles).map String.toList := by
      rw [List.map_cons, List.map_cons, List.map_map, (htight role List.mem_cons_self).trim_eq]
      refine congrArg _ (List.map_congr_left fun other hother => ?_)
      have hblank : Text.Blank [' '] := Text.blank_singleton rfl
      rw [Function.comp_apply, ← List.singleton_append, Text.trim_blank_append _ hblank,
        (htight other (List.mem_cons_of_mem role hother)).trim_eq]
    rw [listedRoles, hcut, htrim, List.filter_eq_self.2, List.map_map]
    · simp [Function.comp_def]
    · intro piece hpiece
      obtain ⟨other, hother, rfl⟩ := List.mem_map.1 hpiece
      simpa using (h other hother).1

/-- A role line in its tidy form is read as before. -/
theorem listedRoles_intercalate_listedRoles (line : String) :
    listedRoles (", ".intercalate (listedRoles line)) = listedRoles line :=
  listedRoles_intercalate (listable_listedRoles line) fun _ => tight_of_mem_listedRoles

end RoutePolicy
