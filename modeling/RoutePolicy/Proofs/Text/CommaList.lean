import RoutePolicy.Proofs.Text.Blank
import RoutePolicy.Proofs.Text.Pieces

/-!
# Entries of comma lists

Role lines and lists of extensions are read alike: a text is cut at its commas, every piece is
brought into a normal form, and a piece of which nothing is left does not count. A comma parts
entries whoever wrote it, so a list that is joined from lines has the entries of its lines, one line
after the other (`commaEntries_joinCommas`). Entries that are joined and read again are the same
exactly if each of them is in its normal form already (`commaEntries_joinCommas_eq_self_iff`).
-/

namespace RoutePolicy.Text

variable {normal : List Char → List Char} {s entry : String} {parts : List String}

/-- The entries of a comma list, where `normal` gives the normal form of a piece. -/
def commaEntries (normal : List Char → List Char) (s : String) : List String :=
  (((s.toList.splitOn ',').map normal).filter fun entry => decide (entry ≠ [])).map String.ofList

theorem mem_commaEntries :
    entry ∈ commaEntries normal s ↔
      ∃ piece ∈ s.toList.splitOn ',', normal piece = entry.toList ∧ entry ≠ "" := by
  simp only [commaEntries, List.mem_map, List.mem_filter, decide_eq_true_eq]
  constructor
  · rintro ⟨_, ⟨⟨piece, hpiece, rfl⟩, hne⟩, rfl⟩
    refine ⟨piece, hpiece, String.toList_ofList.symm, ?_⟩
    intro h
    exact hne (by rw [← String.toList_ofList (l := normal piece), h]; rfl)
  · rintro ⟨piece, hpiece, hnormal, hne⟩
    refine ⟨normal piece, ⟨⟨piece, hpiece, rfl⟩, ?_⟩, by rw [hnormal, String.ofList_toList]⟩
    intro h
    exact hne (String.toList_eq_nil_iff.1 (hnormal.symm.trans h))

/-- A normal form that brings no comma into a piece gives entries without commas. -/
theorem commaFree_of_mem_commaEntries (hcomma : ∀ piece, ',' ∈ normal piece → ',' ∈ piece)
    (h : entry ∈ commaEntries normal s) : CommaFree entry := by
  obtain ⟨piece, hpiece, hnormal, -⟩ := mem_commaEntries.1 h
  intro hmem
  rw [← hnormal] at hmem
  exact not_mem_of_mem_splitOn hpiece (hcomma piece hmem)

/-! ## Joined lists -/

/-- A comma parts the entries before it from those behind it. -/
theorem commaEntries_cut (before behind : List Char) :
    commaEntries normal (String.ofList (before ++ ',' :: behind)) =
      commaEntries normal (String.ofList before) ++ commaEntries normal (String.ofList behind) := by
  simp only [commaEntries, String.toList_ofList, List.splitOn_append_cons_self, List.map_append,
    List.filter_append]

/-- No parts at all are joined to the empty text, of which nothing may be made. -/
theorem commaEntries_joinCommas (hempty : normal [] = []) (parts : List String) :
    commaEntries normal (joinCommas parts) = parts.flatMap (commaEntries normal) := by
  induction parts with
  | nil =>
    have hnil : commaEntries normal (joinCommas []) =
        ([normal []].filter fun entry => decide (entry ≠ [])).map String.ofList := rfl
    rw [hnil, hempty]
    rfl
  | cons part parts ih =>
    cases parts with
    | nil => rw [List.flatMap_singleton]; rfl
    | cons next parts =>
      have hjoin : joinCommas (part :: next :: parts) =
          String.ofList (part.toList ++ ',' :: (joinCommas (next :: parts)).toList) := by
        rw [← String.toList_inj, String.toList_ofList, toList_joinCommas, toList_joinCommas,
          List.map_cons, List.map_cons, List.intercalate_cons_cons, List.append_assoc]
        rfl
      rw [List.flatMap_cons, hjoin, commaEntries_cut, String.ofList_toList, String.ofList_toList,
        ih]

theorem commaEntries_of_commaFree (h : CommaFree s) :
    commaEntries normal s =
      ([normal s.toList].filter fun entry => decide (entry ≠ [])).map String.ofList := by
  rw [commaEntries, List.splitOn_eq_singleton h, List.map_singleton]

theorem commaEntries_joinCommas_of_commaFree (hempty : normal [] = [])
    (free : ∀ part ∈ parts, CommaFree part) :
    commaEntries normal (joinCommas parts) =
      ((parts.map fun part => normal part.toList).filter fun entry => decide (entry ≠ [])).map
        String.ofList := by
  rw [commaEntries_joinCommas hempty]
  induction parts with
  | nil => rfl
  | cons part parts ih =>
    have hrest := ih fun other hother => free other (List.mem_cons_of_mem part hother)
    rw [List.flatMap_cons, hrest, commaEntries_of_commaFree (free part List.mem_cons_self),
      ← List.map_append, ← List.filter_append]
    rfl

/-- Reading a joined list again drops no part, hence it changes nothing exactly if it changes no
part. -/
theorem commaEntries_joinCommas_eq_self_iff (hempty : normal [] = [])
    (full : ∀ part ∈ parts, part ≠ "" ∧ CommaFree part) :
    commaEntries normal (joinCommas parts) = parts ↔
      ∀ part ∈ parts, normal part.toList = part.toList := by
  rw [commaEntries_joinCommas_of_commaFree hempty fun part hpart => (full part hpart).2]
  constructor
  · intro h
    have hlists : (parts.map fun part => normal part.toList).filter
        (fun entry => decide (entry ≠ [])) = parts.map String.toList := by
      have hback := congrArg (List.map String.toList) h
      rwa [List.map_map, show String.toList ∘ String.ofList = id from
        funext fun entry => String.toList_ofList, List.map_id] at hback
    have hall : (parts.map fun part => normal part.toList).filter
        (fun entry => decide (entry ≠ [])) = parts.map fun part => normal part.toList := by
      apply List.filter_sublist.eq_of_length
      rw [hlists, List.length_map, List.length_map]
    rw [hall] at hlists
    exact List.map_inj_left.1 hlists
  · intro h
    have hsame : (parts.map fun part => normal part.toList) = parts.map String.toList :=
      List.map_congr_left h
    have hfull : ∀ entry ∈ parts.map String.toList, decide (entry ≠ []) = true := by
      intro entry hentry
      obtain ⟨part, hpart, rfl⟩ := List.mem_map.1 hentry
      exact decide_eq_true fun hnil => (full part hpart).1 (String.toList_eq_nil_iff.1 hnil)
    rw [hsame, List.filter_eq_self.2 hfull, List.map_map,
      show String.ofList ∘ String.toList = id from funext fun part => String.ofList_toList,
      List.map_id]

/-! ## Blanks around a list -/

section Blanks

variable {blanks : List Char}
  (hnormal : ∀ piece piece', trim piece = trim piece' → normal piece = normal piece')

include hnormal

theorem commaEntries_blank_append (h : Blank blanks) (s : List Char) :
    commaEntries normal (String.ofList (blanks ++ s)) = commaEntries normal (String.ofList s) := by
  -- the blanks belong to the piece before the first comma
  have hpiece : ∀ piece, ',' ∉ piece → commaEntries normal (String.ofList (blanks ++ piece)) =
      commaEntries normal (String.ofList piece) := by
    intro piece hcomma
    have hboth : ',' ∉ blanks ++ piece := by
      rw [List.mem_append, not_or]
      exact ⟨fun hmem => absurd (h ',' hmem) (by decide), hcomma⟩
    rw [commaEntries_of_commaFree (by rwa [CommaFree, String.toList_ofList]),
      commaEntries_of_commaFree (by rwa [CommaFree, String.toList_ofList]), String.toList_ofList,
      String.toList_ofList, hnormal _ _ (trim_blank_append piece h)]
  by_cases hcomma : ',' ∈ s
  · obtain ⟨before, behind, rfl, hbefore⟩ := List.eq_append_cons_of_mem hcomma
    rw [← List.append_assoc, commaEntries_cut, commaEntries_cut, hpiece before hbefore]
  · exact hpiece s hcomma

theorem commaEntries_append_blank (h : Blank blanks) (s : List Char) :
    commaEntries normal (String.ofList (s ++ blanks)) = commaEntries normal (String.ofList s) := by
  -- the blanks belong to the piece behind the last comma
  have hpiece : ∀ piece, ',' ∉ piece → commaEntries normal (String.ofList (piece ++ blanks)) =
      commaEntries normal (String.ofList piece) := by
    intro piece hcomma
    have hboth : ',' ∉ piece ++ blanks := by
      rw [List.mem_append, not_or]
      exact ⟨hcomma, fun hmem => absurd (h ',' hmem) (by decide)⟩
    rw [commaEntries_of_commaFree (by rwa [CommaFree, String.toList_ofList]),
      commaEntries_of_commaFree (by rwa [CommaFree, String.toList_ofList]), String.toList_ofList,
      String.toList_ofList, hnormal _ _ (trim_append_blank piece h)]
  by_cases hcomma : ',' ∈ s
  · obtain ⟨behind, before, hs, hbehind⟩ := List.eq_append_cons_of_mem (List.mem_reverse.2 hcomma)
    have hcut : s = before.reverse ++ ',' :: behind.reverse := by
      rw [← List.reverse_reverse s, hs, List.reverse_append, List.reverse_cons, List.append_assoc]
      rfl
    rw [hcut, List.append_assoc, List.cons_append, commaEntries_cut, commaEntries_cut,
      hpiece _ (by rwa [List.mem_reverse])]
  · exact hpiece s hcomma

/-- Where the pieces are trimmed, it makes no difference that the list is trimmed first. -/
theorem commaEntries_trim (s : String) :
    commaEntries normal (String.ofList (trim s.toList)) = commaEntries normal s := by
  obtain ⟨blanks, hblanks, hstart⟩ := exists_trimStart_eq_append s.toList
  have hbefore : Blank (s.toList.takeWhile isBlank) := fun c hc =>
    List.all_eq_true.1 List.all_takeWhile c hc
  have hs : s.toList.takeWhile isBlank ++ (trim s.toList ++ blanks) = s.toList := by
    rw [← hstart]
    exact List.takeWhile_append_dropWhile
  calc commaEntries normal (String.ofList (trim s.toList))
      = commaEntries normal (String.ofList (trim s.toList ++ blanks)) :=
        (commaEntries_append_blank hnormal hblanks _).symm
    _ = commaEntries normal
          (String.ofList (s.toList.takeWhile isBlank ++ (trim s.toList ++ blanks))) :=
        (commaEntries_blank_append hnormal hbefore _).symm
    _ = commaEntries normal s := by rw [hs, String.ofList_toList]

end Blanks

end RoutePolicy.Text
