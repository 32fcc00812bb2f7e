import RoutePolicy.FileTree.Lookup
import RoutePolicy.Proofs.Text.Pieces

/-!
# The paths around a path

The directories that are made for a file are told by the paths around its own path. Each of them is
what stands before one of the slashes of that path, or the root. The extension of a name is what
stands behind the last of its points.
-/

namespace RoutePolicy.Path

variable {path parent around : String} {parts more reversed suffix : List String}

theorem intercalate_pieces (path : String) : String.intercalate "/" (pieces path) = path := by
  rw [← String.toList_inj, String.toList_intercalate, pieces, List.map_map]
  have hid : String.toList ∘ String.ofList = id := funext fun _ => String.toList_ofList
  rw [hid, List.map_id]
  exact List.intercalate_splitOn '/'

theorem pieces_intercalate (hne : parts ≠ []) (hslash : ∀ part ∈ parts, '/' ∉ part.toList) :
    pieces (String.intercalate "/" parts) = parts := by
  have hpieces : ∀ piece ∈ parts.map String.toList, '/' ∉ piece := List.forall_mem_map.2 hslash
  have hcut := List.splitOn_intercalate '/' hpieces (by simpa using hne)
  have hseparator : ("/" : String).toList = ['/'] := rfl
  rw [pieces, String.toList_intercalate, hseparator, hcut, List.map_map]
  simp [Function.comp_def]

theorem slash_not_mem_of_mem_pieces {piece : String} (h : piece ∈ pieces path) :
    '/' ∉ piece.toList := by
  obtain ⟨cut, hcut, rfl⟩ := List.mem_map.1 h
  rw [String.toList_ofList]
  exact Text.not_mem_of_mem_splitOn hcut

theorem intercalate_append (hparts : parts ≠ []) (hmore : more ≠ []) :
    String.intercalate "/" (parts ++ more) =
      String.intercalate "/" parts ++ "/" ++ String.intercalate "/" more := by
  have hseparator : ("/" : String).toList = ['/'] := rfl
  obtain ⟨part, parts, rfl⟩ := List.exists_cons_of_ne_nil hparts
  obtain ⟨next, more, rfl⟩ := List.exists_cons_of_ne_nil hmore
  rw [← String.toList_inj]
  simp only [String.toList_append, String.toList_intercalate, List.map_append, List.map_cons,
    List.cons_append, Text.intercalate_cons, List.flatMap_append, List.flatMap_cons, hseparator,
    List.append_assoc]

theorem dropFillers_suffix (reversed : List String) : dropFillers reversed <:+ reversed := by
  fun_induction dropFillers reversed with
  | case1 => exact List.suffix_rfl
  | case2 => exact List.suffix_rfl
  | case3 piece before _ _ ih => exact ih.trans (List.suffix_cons piece before)
  | case4 => exact List.suffix_rfl

theorem exists_suffix_of_mem_chainOfReversed (h : around ∈ chainOfReversed reversed) :
    ∃ suffix, suffix ≠ [] ∧ suffix <:+ reversed ∧ around = textOfReversed suffix := by
  fun_induction chainOfReversed reversed with
  | case1 => cases h
  | case2 piece before _ ih =>
    obtain ⟨suffix, hne, hsuffix, htext⟩ := ih h
    exact ⟨suffix, hne, hsuffix.trans (List.suffix_cons piece before), htext⟩
  | case3 piece before _ ih =>
    rcases List.mem_cons.1 h with rfl | h
    · exact ⟨_, List.cons_ne_nil _ _, List.suffix_rfl, rfl⟩
    · obtain ⟨suffix, hne, hsuffix, htext⟩ := ih h
      exact ⟨suffix, hne, hsuffix.trans (List.suffix_cons piece before), htext⟩

theorem textOfReversed_of_ne (h : reversed ≠ [""]) :
    textOfReversed reversed = String.intercalate "/" reversed.reverse := by
  rw [textOfReversed]
  exact h

theorem mem_chain_intercalate (hslash : ∀ part ∈ reversed, '/' ∉ part.toList)
    (h : around ∈ chain (String.intercalate "/" reversed.reverse)) :
    ∃ suffix, suffix ≠ [] ∧ suffix <:+ reversed ∧ around = textOfReversed suffix := by
  rw [chain] at h
  split at h
  · cases h
  · next htext =>
    have hnil : reversed.reverse ≠ [] := by
      intro hnil
      rw [hnil] at htext
      exact htext rfl
    rw [pieces_intercalate hnil fun part hpart => hslash part (List.mem_reverse.1 hpart),
      List.reverse_reverse] at h
    exact exists_suffix_of_mem_chainOfReversed h

/-- A path around the directory of a path is the root, or it stands before a slash. -/
theorem eq_append_of_mem_chain (hparent : parent? path = some parent) (h : around ∈ chain parent) :
    around = "/" ∨ ∃ rest, path = around ++ "/" ++ rest := by
  rw [parent?] at hparent
  split at hparent
  · cases hparent
  · cases hparent
  · cases hparent
    cases h
  · next name before _ _ hdrop =>
    cases hparent
    by_cases hroot : dropFillers before = [""]
    · rw [hroot] at h
      exact .inl (List.mem_singleton.1 h)
    rw [textOfReversed_of_ne hroot] at h
    have hbefore : name :: before <:+ (pieces path).reverse := hdrop ▸ dropFillers_suffix _
    have hslash : ∀ part ∈ dropFillers before, '/' ∉ part.toList := by
      intro part hpart
      have hmem := (dropFillers_suffix before).mem hpart
      exact slash_not_mem_of_mem_pieces
        (List.mem_reverse.1 (hbefore.mem (List.mem_cons_of_mem name hmem)))
    obtain ⟨suffix, hne, hsuffix, rfl⟩ := mem_chain_intercalate hslash h
    by_cases hroot' : suffix = [""]
    · exact .inl (by rw [hroot']; rfl)
    obtain ⟨between, hbetween⟩ := hsuffix.trans (dropFillers_suffix before)
    obtain ⟨behind, hbehind⟩ := hbefore
    -- the pieces of the path, from the last one back
    have hpieces : (pieces path).reverse = behind ++ name :: (between ++ suffix) := by
      rw [hbetween, hbehind]
    refine .inr ⟨String.intercalate "/" (between.reverse ++ name :: behind.reverse), ?_⟩
    rw [textOfReversed_of_ne hroot',
      ← intercalate_append (by simpa using hne) (by simp), ← intercalate_pieces path]
    congr 1
    rw [← List.reverse_reverse (pieces path), hpieces]
    simp

/-! ## Extensions -/

/-- The name ends in a last point and the extension, and something stands before that point. -/
def IsExtension (extension name : String) : Prop :=
  ∃ stem : List Char, stem ≠ [] ∧ '.' ∉ extension.toList ∧
    name.toList = stem ++ '.' :: extension.toList

theorem extension?_of_last_point {name : String} {stem extension : List Char}
    (hpoint : '.' ∉ extension) (hname : name.toList = stem ++ '.' :: extension) :
    extension? name = if stem = [] then none else some (String.ofList extension) := by
  obtain ⟨piece, pieces, hstem⟩ : ∃ piece pieces, (stem.splitOn '.').reverse = piece :: pieces :=
    List.exists_cons_of_ne_nil (by simp)
  have hpieces : piece :: pieces = [[]] ↔ stem = [] := by
    rw [← hstem, List.reverse_eq_iff, List.reverse_singleton]
    constructor
    · intro h
      have hjoin : ['.'].intercalate (stem.splitOn '.') = stem := List.intercalate_splitOn '.'
      rw [← hjoin, h, List.intercalate_singleton]
    · rintro rfl
      exact List.splitOn_nil '.'
  rw [extension?, hname, List.splitOn_append_cons_self, List.splitOn_eq_singleton hpoint,
    List.reverse_append, List.reverse_singleton, List.singleton_append, hstem]
  exact if_congr hpieces rfl rfl

theorem extension?_eq_some_iff {name extension : String} :
    extension? name = some extension ↔ IsExtension extension name := by
  constructor
  · intro h
    by_cases hmem : '.' ∈ name.toList.reverse
    · -- the first point from the back is the last one
      obtain ⟨back, front, hback, hpoint⟩ := List.eq_append_cons_of_mem hmem
      have hname : name.toList = front.reverse ++ '.' :: back.reverse := by
        rw [← List.reverse_reverse name.toList, hback]
        simp
      rw [extension?_of_last_point (by simpa using hpoint) hname] at h
      split at h
      · cases h
      · next hstem =>
        rw [← Option.some.inj h, IsExtension, String.toList_ofList]
        exact ⟨front.reverse, hstem, by simpa using hpoint, hname⟩
    · rw [extension?, List.splitOn_eq_singleton (by simpa using hmem)] at h
      cases h
  · rintro ⟨stem, hstem, hpoint, hname⟩
    rw [extension?_of_last_point hpoint hname, if_neg hstem, String.ofList_toList]

end RoutePolicy.Path
