import Mathlib
import RoutePolicy.Proofs.Source.Flat
import RoutePolicy.Proofs.Text.Blank
import RoutePolicy.Proofs.Text.CommaList
import RoutePolicy.Settings

/-!
# Normal forms of extensions

An extension is trimmed, then loses its leading points, then is put in lower case. The three steps
do not commute: a blank behind the points stands at the beginning once the points are gone, and
nothing trims it any more. So what is read is a normal form, which a second reading leaves alone,
exactly if no piece of the list has a blank there (`keepsNormalForms_iff`). What a normal form is in
all other respects holds of every extension that is read (`isEntry_of_mem`).
-/

namespace RoutePolicy.Settings

open Text (CommaFree Tight isBlank joinCommas trim)

/-! ## Lower case -/

section LowerCase

variable {c d : Char}

theorem toLower_eq_self (h : c.isAlpha = false) : c.toLower = c := by
  apply Char.toLower_eq_of_not_isUpper
  intro hupper
  rw [Char.isAlpha, hupper, Bool.true_or] at h
  exact Bool.noConfusion h

/-- Lowering changes letters into letters, so it neither makes nor removes another character. -/
theorem toLower_eq_iff (h : d.isAlpha = false) : c.toLower = d ↔ c = d := by
  constructor
  · intro heq
    have hc : c.isAlpha = false := by rw [← Char.isAlpha_toLower_eq_isAlpha, heq, h]
    rwa [toLower_eq_self hc] at heq
  · rintro rfl
    exact toLower_eq_self h

theorem isAlpha_eq_false_of_isBlank (h : isBlank c = true) : c.isAlpha = false := by
  by_contra halpha
  rw [Bool.not_eq_false, Char.isAlpha, Bool.or_eq_true] at halpha
  simp only [Char.isUpper, Char.isLower, Bool.and_eq_true, decide_eq_true_eq,
    UInt32.le_iff_toNat_le] at halpha
  simp only [isBlank, Bool.or_eq_true, Bool.and_eq_true, decide_eq_true_eq, beq_iff_eq] at h
  have hupper : 'A'.val.toNat = 65 ∧ 'Z'.val.toNat = 90 := ⟨rfl, rfl⟩
  have hlower : 'a'.val.toNat = 97 ∧ 'z'.val.toNat = 122 := ⟨rfl, rfl⟩
  have hcode : c.val.toNat = c.toNat := rfl
  omega

theorem isBlank_toLower (c : Char) : isBlank c.toLower = isBlank c := by
  rw [Bool.eq_iff_iff]
  constructor
  · intro h
    have hc : c.isAlpha = false := by
      rw [← Char.isAlpha_toLower_eq_isAlpha, isAlpha_eq_false_of_isBlank h]
    rwa [toLower_eq_self hc] at h
  · intro h
    rwa [toLower_eq_self (isAlpha_eq_false_of_isBlank h)]

theorem map_toLower_eq_self {s : List Char} (h : ∀ c ∈ s, c.isUpper = false) :
    s.map Char.toLower = s := by
  rw [List.map_congr_left fun c hc => Char.toLower_eq_of_not_isUpper (by rw [h c hc]; decide)]
  exact List.map_id s

end LowerCase

/-! ## One extension -/

variable {piece : List Char} {extension raw : String}

/-- What every extension is that is read from a list. -/
structure IsEntry (extension : String) : Prop where
  ne_empty : extension ≠ ""
  commaFree : CommaFree extension
  point : extension.toList.head? ≠ some '.'
  lower : ∀ c ∈ extension.toList, c.isUpper = false
  last : ∀ c, extension.toList.getLast? = some c → isBlank c = false

structure IsNormal (extension : String) : Prop extends IsEntry extension where
  trimmed : trim extension.toList = extension.toList

/-- Behind the points that a trimmed piece begins with stands a blank. -/
def BlankBehindPoints (piece : List Char) : Prop :=
  ∃ points blank rest, points ≠ [] ∧ (∀ c ∈ points, c = '.') ∧ isBlank blank = true ∧
    trim piece = points ++ blank :: rest

def withoutPoints (piece : List Char) : List Char := (trim piece).dropWhile (· == '.')

theorem normalExtension_eq (piece : List Char) :
    normalExtension piece = (withoutPoints piece).map Char.toLower := rfl

theorem comma_mem_of_normalExtension (h : ',' ∈ normalExtension piece) : ',' ∈ piece := by
  obtain ⟨c, hc, hlower⟩ := List.mem_map.1 h
  rw [(toLower_eq_iff (by decide)).1 hlower] at hc
  exact Text.mem_of_mem_trim ((List.dropWhile_sublist _).mem hc)

theorem head?_withoutPoints_ne (piece : List Char) : (withoutPoints piece).head? ≠ some '.' := by
  intro h
  have hnot := List.head?_dropWhile_not (· == '.') (trim piece)
  rw [← withoutPoints, h] at hnot
  exact absurd hnot (by decide)

/-- The points are taken off a trimmed piece, so nothing blank is left at the end. -/
theorem isBlank_of_getLast?_withoutPoints {c : Char}
    (h : (withoutPoints piece).getLast? = some c) : isBlank c = false := by
  obtain ⟨points, hpoints⟩ := List.dropWhile_suffix (· == '.') (l := trim piece)
  apply (Text.tight_trim piece).last c
  rw [← hpoints, ← withoutPoints, List.getLast?_append, h]
  rfl

theorem isEntry_of_mem (h : extension ∈ parseExtensions raw) : IsEntry extension := by
  obtain ⟨piece, hpiece, hnormal, hne⟩ := Text.mem_commaEntries.1 h
  rw [normalExtension_eq] at hnormal
  refine ⟨hne, Text.commaFree_of_mem_commaEntries (fun _ => comma_mem_of_normalExtension) h, ?_, ?_,
    ?_⟩
  · intro hpoint
    rw [← hnormal, List.head?_map, Option.map_eq_some_iff] at hpoint
    obtain ⟨c, hc, hlower⟩ := hpoint
    rw [(toLower_eq_iff (by decide)).1 hlower] at hc
    exact head?_withoutPoints_ne piece hc
  · intro c hc
    rw [← hnormal] at hc
    obtain ⟨other, -, rfl⟩ := List.mem_map.1 hc
    exact Char.isUpper_toLower_eq_false other
  · intro c hc
    rw [← hnormal, List.getLast?_map, Option.map_eq_some_iff] at hc
    obtain ⟨other, hother, rfl⟩ := hc
    rw [isBlank_toLower]
    exact isBlank_of_getLast?_withoutPoints hother

/-- What is left without the points begins with a blank exactly if one stood behind them. -/
theorem blankBehindPoints_iff :
    BlankBehindPoints piece ↔
      ∃ blank, (withoutPoints piece).head? = some blank ∧ isBlank blank = true := by
  constructor
  · rintro ⟨points, blank, rest, -, hpoints, hblank, htrim⟩
    have hpoint : (blank == '.') = false := by
      rw [beq_eq_false_iff_ne]
      rintro rfl
      exact absurd hblank (by decide)
    have hdrop : withoutPoints piece = blank :: rest := by
      rw [withoutPoints, htrim, List.dropWhile_append_of_pos fun c hc => by rw [hpoints c hc]; rfl,
        List.dropWhile_cons_of_neg (by rw [hpoint]; decide)]
    exact ⟨blank, by rw [hdrop]; rfl, hblank⟩
  · rintro ⟨blank, hhead, hblank⟩
    obtain ⟨rest, hrest⟩ := List.head?_eq_some_iff.1 hhead
    have htrim : trim piece = (trim piece).takeWhile (· == '.') ++ blank :: rest := by
      rw [← hrest, withoutPoints, List.takeWhile_append_dropWhile]
    refine ⟨_, blank, rest, ?_, ?_, hblank, htrim⟩
    · intro hnil
      rw [hnil, List.nil_append] at htrim
      have hfirst := (Text.tight_trim piece).head blank (by rw [htrim]; rfl)
      exact absurd (hblank.symm.trans hfirst) (by decide)
    · intro c hc
      exact eq_of_beq (List.all_eq_true.1 List.all_takeWhile c hc)

-- a test of the first character; without it all characters there are would be searched
instance (piece : List Char) : Decidable (BlankBehindPoints piece) :=
  decidable_of_iff ((withoutPoints piece).head?.any isBlank = true) <| by
    rw [blankBehindPoints_iff]
    cases (withoutPoints piece).head? <;> simp

/-! ## Lists of extensions -/

/-- A list that is trimmed as a whole has the same extensions. -/
theorem parseExtensions_trim (raw : String) :
    parseExtensions (String.ofList (trim raw.toList)) = parseExtensions raw := by
  apply Text.commaEntries_trim
  intro piece piece' htrim
  rw [normalExtension, htrim, ← normalExtension]

theorem IsEntry.trimmed_iff (h : IsEntry extension) :
    trim extension.toList = extension.toList ↔
      ∀ c, extension.toList.head? = some c → isBlank c = false := by
  constructor
  · intro htrim
    have htight := Text.tight_trim extension.toList
    rw [htrim] at htight
    exact htight.head
  · intro hhead
    exact Tight.trim_eq ⟨hhead, h.last⟩

/-- The entries are trimmed exactly if no blank stands behind the points of a piece. -/
theorem trimmed_iff (raw : String) :
    (∀ extension ∈ parseExtensions raw, trim extension.toList = extension.toList) ↔
      ∀ piece ∈ raw.toList.splitOn ',', ¬ BlankBehindPoints piece := by
  constructor
  · intro h piece hpiece hbehind
    obtain ⟨blank, hhead, hblank⟩ := blankBehindPoints_iff.1 hbehind
    obtain ⟨rest, hrest⟩ := List.head?_eq_some_iff.1 hhead
    let extension := String.ofList (normalExtension piece)
    have htext : extension.toList = blank.toLower :: rest.map Char.toLower := by
      rw [String.toList_ofList, normalExtension_eq, hrest, List.map_cons]
    have hne : extension ≠ "" := by
      intro hempty
      rw [hempty] at htext
      exact absurd htext (List.cons_ne_nil _ _).symm
    have hmem : extension ∈ parseExtensions raw :=
      Text.mem_commaEntries.2 ⟨piece, hpiece, String.toList_ofList.symm, hne⟩
    have hfirst := (isEntry_of_mem hmem).trimmed_iff.1 (h extension hmem) blank.toLower
      (by rw [htext]; rfl)
    rw [isBlank_toLower, hblank] at hfirst
    exact Bool.noConfusion hfirst
  · intro h extension hmem
    apply (isEntry_of_mem hmem).trimmed_iff.2
    intro c hc
    obtain ⟨piece, hpiece, hnormal, -⟩ := Text.mem_commaEntries.1 hmem
    rw [← hnormal, normalExtension_eq, List.head?_map, Option.map_eq_some_iff] at hc
    obtain ⟨blank, hhead, rfl⟩ := hc
    rw [isBlank_toLower, ← Bool.not_eq_true]
    exact fun hblank => h piece hpiece (blankBehindPoints_iff.2 ⟨blank, hhead, hblank⟩)

theorem IsEntry.normalExtension_eq_self_iff (h : IsEntry extension) :
    normalExtension extension.toList = extension.toList ↔
      trim extension.toList = extension.toList := by
  constructor
  · intro hsame
    -- what trimming takes off is not put back by the other two steps
    have hle : (normalExtension extension.toList).length ≤ (trim extension.toList).length := by
      rw [normalExtension_eq, List.length_map]
      exact (List.dropWhile_sublist _).length_le
    rw [hsame] at hle
    exact (Text.trim_sublist _).eq_of_length_le hle
  · intro htrim
    have hpoints : withoutPoints extension.toList = extension.toList := by
      rw [withoutPoints, htrim]
      cases hs : extension.toList with
      | nil => rfl
      | cons c rest =>
        apply List.dropWhile_cons_of_neg
        intro hc
        apply h.point
        rw [hs, eq_of_beq hc]
        rfl
    rw [normalExtension_eq, hpoints, map_toLower_eq_self h.lower]

theorem parseExtensions_again_iff (raw : String) :
    parseExtensions (joinCommas (parseExtensions raw)) = parseExtensions raw ↔
      ∀ piece ∈ raw.toList.splitOn ',', ¬ BlankBehindPoints piece := by
  have hfull : ∀ extension ∈ parseExtensions raw, extension ≠ "" ∧ CommaFree extension :=
    fun extension hmem => ⟨(isEntry_of_mem hmem).ne_empty, (isEntry_of_mem hmem).commaFree⟩
  have hagain : parseExtensions (joinCommas (parseExtensions raw)) = parseExtensions raw ↔
      ∀ extension ∈ parseExtensions raw,
        normalExtension extension.toList = extension.toList :=
    Text.commaEntries_joinCommas_eq_self_iff rfl hfull
  rw [hagain, ← trimmed_iff]
  exact forall₂_congr fun extension hmem =>
    (isEntry_of_mem hmem).normalExtension_eq_self_iff

/-- The extensions of a list are in their normal form, and stay as they are when they are joined and
read again. -/
def KeepsNormalForms (raw : String) : Prop :=
  (∀ extension ∈ parseExtensions raw, IsNormal extension) ∧
    parseExtensions (joinCommas (parseExtensions raw)) = parseExtensions raw

theorem keepsNormalForms_iff (raw : String) :
    KeepsNormalForms raw ↔ ∀ piece ∈ raw.toList.splitOn ',', ¬ BlankBehindPoints piece := by
  constructor
  · exact fun h => (parseExtensions_again_iff raw).1 h.2
  · intro h
    refine ⟨fun extension hmem => ?_, (parseExtensions_again_iff raw).2 h⟩
    exact ⟨isEntry_of_mem hmem, (trimmed_iff raw).2 h extension hmem⟩

/-- Entries are in lower case, so a file is selected by comparing the cases away on both sides. -/
theorem hasExtension_parseExtensions_iff {name : String} :
    Source.hasExtension (parseExtensions raw) name ↔
      ∃ own, Path.IsExtension own name ∧ ∃ extension ∈ parseExtensions raw,
        own.toList.map Char.toLower = extension.toList.map Char.toLower := by
  rw [Source.hasExtension_iff]
  refine exists_congr fun own => and_congr_right fun _ => ?_
  constructor
  · intro hmem
    have hlower := (isEntry_of_mem hmem).lower
    exact ⟨_, hmem, by rw [map_toLower_eq_self hlower, String.toList_ofList]⟩
  · rintro ⟨extension, hmem, hsame⟩
    rw [map_toLower_eq_self (isEntry_of_mem hmem).lower] at hsame
    rwa [hsame, String.ofList_toList]

/-- Extensions that are read are not empty, have no comma, no point in front, no capital and no
blank at the end, and files are compared with them in lower case. They are trimmed at the front,
too, and stay as they are when they are joined and read again, exactly if no piece of the list has a
blank behind its points. -/
theorem extensions_normal_unless_blank (raw : String) :
    (∀ extension ∈ parseExtensions raw, IsEntry extension) ∧
      (∀ name, Source.hasExtension (parseExtensions raw) name ↔
        ∃ own, Path.IsExtension own name ∧ ∃ extension ∈ parseExtensions raw,
          own.toList.map Char.toLower = extension.toList.map Char.toLower) ∧
      (KeepsNormalForms raw ↔ ∀ piece ∈ raw.toList.splitOn ',', ¬ BlankBehindPoints piece) ∧
      (parseExtensions (joinCommas (parseExtensions raw)) = parseExtensions raw ↔
        ∀ piece ∈ raw.toList.splitOn ',', ¬ BlankBehindPoints piece) :=
  ⟨fun _ => isEntry_of_mem, fun _ => hasExtension_parseExtensions_iff, keepsNormalForms_iff raw,
    parseExtensions_again_iff raw⟩

/-- Blanks stand around the pieces, and points in front of and inside of them. -/
theorem extensions_normal_of_points :
    let raw := "\u2003.Go,, ...tar.GZ ,. ,g o"
    ("tar.gz" ∈ parseExtensions raw ∧ IsEntry "tar.gz") ∧
      (∀ piece ∈ raw.toList.splitOn ',', ¬ BlankBehindPoints piece) ∧ KeepsNormalForms raw := by
  intro raw
  have hmem : "tar.gz" ∈ parseExtensions raw := by decide +kernel
  have hnone : ∀ piece ∈ raw.toList.splitOn ',', ¬ BlankBehindPoints piece := by decide +kernel
  obtain ⟨hextension, -, hkeeps, -⟩ := extensions_normal_unless_blank raw
  exact ⟨⟨hmem, hextension "tar.gz" hmem⟩, hnone, hkeeps.2 hnone⟩

/-- The blank behind the point is not trimmed, until the list is read again. -/
theorem not_keepsNormalForms :
    ¬ KeepsNormalForms ". go" ∧ parseExtensions ". go" = [" go"] ∧
      parseExtensions " go" = ["go"] := by
  have hread : parseExtensions ". go" = [" go"] := by decide +kernel
  refine ⟨fun h => ?_, hread, by decide +kernel⟩
  have hnormal : IsNormal " go" := h.1 " go" (by rw [hread]; exact List.mem_singleton_self " go")
  exact absurd hnormal.trimmed (by decide +kernel)

end RoutePolicy.Settings
