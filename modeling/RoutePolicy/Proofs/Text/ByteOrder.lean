import Mathlib.Data.List.Basic

/-!
# The order of bytes

Texts are compared character by character. That is the order of their UTF-8 bytes too: of two
characters the lesser one has the lesser byte at the first place where their bytes differ, so the
characters behind them have no say (`below_encodeChar`).
-/

namespace RoutePolicy.Text

def bytesOf (s : String) : List UInt8 := s.toUTF8.data.toList

/-- Both lists have a byte at the first place where they differ, and the lesser one is in the
first. -/
def Below : List UInt8 → List UInt8 → Prop
  | a :: as, b :: bs => a < b ∨ a = b ∧ Below as bs
  | _, _ => False

theorem Below.append_lt {as bs : List UInt8} (h : Below as bs) (xs ys : List UInt8) :
    as ++ xs < bs ++ ys := by
  induction as generalizing bs with
  | nil => exact absurd h (by simp [Below])
  | cons a as ih =>
    cases bs with
    | nil => exact absurd h (by simp [Below])
    | cons b bs =>
      rw [List.cons_append, List.cons_append, List.cons_lt_cons_iff]
      exact h.imp_right fun ⟨heq, hrest⟩ => ⟨heq, ih hrest⟩

theorem below_encodeChar {c d : Char} (h : c < d) :
    Below (String.utf8EncodeChar c) (String.utf8EncodeChar d) := by
  have hlt : c.val.toNat < d.val.toNat := UInt32.lt_iff_toNat_lt.1 (Char.lt_def.1 h)
  have hmax : d.val.toNat < 0x110000 := by
    have hvalid := d.valid
    simp only [UInt32.isValidChar, Nat.isValidChar] at hvalid
    omega
  -- one case for each pair of lengths; the longer form has the greater first byte
  have hdigits : ∀ n, n / 4096 = n / 64 / 64 ∧ n / 262144 = n / 64 / 64 / 64 := by
    intro n
    omega
  simp only [String.utf8EncodeChar, hdigits]
  split_ifs <;>
    simp (disch := omega) only [Below, UInt8.lt_iff_toNat_lt, ← UInt8.toNat_inj,
      UInt8.toNat_ofNat', Nat.reducePow, and_false, or_false, Nat.mod_eq_of_lt] <;>
    omega

theorem flatMap_encodeChar_lt {cs ds : List Char} (h : cs < ds) :
    cs.flatMap String.utf8EncodeChar < ds.flatMap String.utf8EncodeChar := by
  induction cs generalizing ds with
  | nil =>
    cases ds with
    | nil => exact absurd h (List.lt_irrefl [])
    | cons d ds =>
      obtain ⟨byte, bytes, hbytes⟩ :=
        List.exists_cons_of_ne_nil (String.utf8EncodeChar_ne_nil (c := d))
      rw [List.flatMap_nil, List.flatMap_cons, hbytes]
      exact List.nil_lt_cons _ _
  | cons c cs ih =>
    cases ds with
    | nil => exact absurd h (List.not_lt_nil _)
    | cons d ds =>
      rw [List.flatMap_cons, List.flatMap_cons]
      rcases List.cons_lt_cons_iff.1 h with hlt | ⟨rfl, hlt⟩
      · exact (below_encodeChar hlt).append_lt _ _
      · exact List.append_left_lt (ih hlt)

theorem bytesOf_eq (s : String) : bytesOf s = s.toList.flatMap String.utf8EncodeChar := by
  have hbytes : s.toByteArray = s.toList.utf8Encode := by
    rw [← String.toByteArray_ofList, String.ofList_toList]
  rw [bytesOf, String.toUTF8_eq_toByteArray, hbytes, List.utf8Encode, List.toList_data_toByteArray]

/-- The lesser of two texts has the lesser bytes. -/
theorem bytesOf_lt {s t : String} (h : s < t) : bytesOf s < bytesOf t := by
  rw [bytesOf_eq, bytesOf_eq]
  exact flatMap_encodeChar_lt h

theorem map_bytesOf_lt {names names' : List String} (h : names < names') :
    names.map bytesOf < names'.map bytesOf :=
  List.map_lt (fun _ _ => bytesOf_lt) h

end RoutePolicy.Text
