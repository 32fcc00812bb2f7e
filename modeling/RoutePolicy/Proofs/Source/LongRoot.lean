import RoutePolicy.Proofs.Source.Tree

/-!
# Long roots

A path may go the long way to a directory. Then the entries at the top of a tree may have paths that
are too long to be opened, though their names are short.
-/

namespace RoutePolicy

open Source (Opens)

variable {root name : String} {size : Nat}

/-- A root that leads to the whole tree, told by so many bytes, with a slash at its end. -/
structure IsLongRoot (root : String) (size : Nat) : Prop where
  resolve : ∀ t : FileTree, t.resolve .inspecting root = .ok (.found [])
  slash : root.toList.getLast? = some '/'
  size : root.utf8ByteSize = size

/-- The current directory, told the long way. -/
def dots : Nat → String
  | 0 => ""
  | n + 1 => "./" ++ dots n

theorem toList_dots_succ (n : Nat) : (dots (n + 1)).toList = '.' :: '/' :: (dots n).toList := by
  rw [dots, String.toList_append]
  rfl

theorem utf8ByteSize_dots (n : Nat) : (dots n).utf8ByteSize = 2 * n := by
  induction n with
  | zero => rfl
  | succ n ih =>
    have hdot : ("./" : String).utf8ByteSize = 2 := rfl
    rw [dots, String.utf8ByteSize_append, ih, hdot]
    omega

theorem isFiller_of_mem_pieces_dots {n : Nat} {piece : String}
    (h : piece ∈ Path.pieces (dots n)) : Path.isFiller piece := by
  induction n with
  | zero =>
    rw [List.mem_singleton.1 (show piece ∈ [""] from h)]
    rfl
  | succ n ih =>
    rw [Path.pieces, toList_dots_succ, List.splitOn_cons_eq_if_modifyHead,
      List.splitOn_cons_eq_if_modifyHead] at h
    rcases List.mem_cons.1 h with rfl | h
    · decide
    · exact ih h

theorem nul_not_mem_dots (n : Nat) : '\x00' ∉ (dots n).toList := by
  induction n with
  | zero => exact List.not_mem_nil
  | succ n ih =>
    rw [toList_dots_succ]
    simp [ih]

theorem getLast?_dots_succ (n : Nat) : (dots (n + 1)).toList.getLast? = some '/' := by
  induction n with
  | zero =>
    rw [toList_dots_succ]
    rfl
  | succ n ih =>
    rw [toList_dots_succ, List.getLast?_cons, List.getLast?_cons, ih]
    rfl

theorem isLongRoot_dots {n size : Nat} (hn : n ≠ 0) (hsize : 2 * n = size)
    (hlimit : size ≤ FileTree.pathLimit) : IsLongRoot (dots n) size := by
  have hbytes : (dots n).utf8ByteSize = size := (utf8ByteSize_dots n).trans hsize
  have hslash : (dots n).toList.getLast? = some '/' := by
    obtain ⟨n, rfl⟩ := Nat.exists_eq_succ_of_ne_zero hn
    exact getLast?_dots_succ n
  have hne : dots n ≠ "" := by
    intro heq
    rw [heq] at hslash
    cases hslash
  have hrefusal : FileTree.refusal? (dots n) = none := by
    rw [FileTree.refusal?, if_neg (by simpa using nul_not_mem_dots n), if_neg hne, hbytes,
      if_neg (Nat.not_lt_of_le hlimit)]
  exact {
    resolve := fun _ => FileTree.resolve_fillers (by decide) hrefusal fun _ =>
      isFiller_of_mem_pieces_dots
    slash := hslash
    size := hbytes }

theorem IsLongRoot.entriesOf (h : IsLongRoot root size) (t : FileTree)
    (extensions : List String) :
    Source.entriesOf t extensions root = .ok (Source.opened extensions t.entries) := by
  rw [Source.entriesOf, FileTree.locate_eq_ok_iff.2 ⟨h.resolve t, rfl⟩]

theorem IsLongRoot.opens_iff (h : IsLongRoot root size) :
    Opens root [name] ↔ size + name.utf8ByteSize ≤ FileTree.pathLimit := by
  have hname : String.intercalate "/" [name] = name := by
    rw [← String.toList_inj, String.toList_intercalate, List.map_singleton,
      List.intercalate_singleton]
  rw [Opens, Path.below, if_pos h.slash, hname, String.utf8ByteSize_append, h.size]
  exact List.cons_ne_nil name []

end RoutePolicy
