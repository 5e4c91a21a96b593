/-
  Ascending lists of texts, and the order of their bytes.

  * `sortUnique_eq_iff`: there is only one ascending list of given texts;
  * `bytes s` are the bytes of a text in UTF-8, character by character
    (`bytes_eq_flatMap`), and their number is that of the characters together
    (`utf8ByteSize_eq_total`);
  * the bytes of a character and of a greater one differ, and the first
    difference decides, whatever follows (`encode_append_lt`);
  * `bytes_lt_bytes`: a smaller text has smaller bytes, so that texts in
    ascending order are in the order of their bytes.
-/
import LicenseExpr.Expr.Basic
import LicenseExpr.Text.Order
import Mathlib.Data.List.Sort

namespace LicenseExpr

theorem sortUnique_eq_iff {l m : List String} :
    sortUnique m = l ↔ l.Pairwise (· < ·) ∧ ∀ s, s ∈ l ↔ s ∈ m := by
  constructor
  · rintro rfl
    exact ⟨pairwise_sortUnique m, fun _ => mem_sortUnique⟩
  · rintro ⟨hl, hm⟩
    exact (pairwise_sortUnique m).eq_of_mem_iff hl fun s => mem_sortUnique.trans (hm s).symm

/-! ## Bytes -/

/-- The bytes of a text in UTF-8. -/
def bytes (s : String) : List UInt8 :=
  s.toUTF8.data.toList

open String (utf8EncodeChar)

theorem bytes_eq_flatMap (s : String) : bytes s = s.toList.flatMap utf8EncodeChar := by
  conv => lhs; rw [bytes, ← String.ofList_toList (s := s)]
  rw [String.toUTF8, String.toByteArray_ofList, List.utf8Encode, List.data_toByteArray]

theorem utf8ByteSize_eq_total (s : String) : s.utf8ByteSize = total Char.utf8Size s.toList := by
  have hsize : ∀ cs, (String.ofList cs).utf8ByteSize = total Char.utf8Size cs := by
    intro cs
    induction cs with
    | nil => rfl
    | cons c cs ih =>
      rw [String.ofList_cons, String.utf8ByteSize_append, String.utf8ByteSize_singleton, ih]
      rfl
  rw [← hsize, String.ofList_toList]

/-- A comparison of bytes is one of the numbers that they are. -/
theorem ofNat_cons_lt_iff {a b : Nat} (ha : a < 256) (hb : b < 256) (x y : List UInt8) :
    UInt8.ofNat a :: x < UInt8.ofNat b :: y ↔ a < b ∨ a = b ∧ x < y := by
  rw [List.cons_lt_cons_iff, UInt8.lt_iff_toNat_lt, ← UInt8.toNat_inj, UInt8.toNat_ofNat',
    UInt8.toNat_ofNat', Nat.mod_eq_of_lt ha, Nat.mod_eq_of_lt hb]

theorem toNat_val_lt (c : Char) : c.val.toNat < 0x110000 := by
  have hc : c.val.toNat.isValidChar := c.valid
  unfold Nat.isValidChar at hc
  omega

/-- **The first byte in which two characters differ decides** which of them
    is smaller, and there is one before either of them ends. -/
theorem encode_append_lt {c d : Char} (h : c < d) (x y : List UInt8) :
    utf8EncodeChar c ++ x < utf8EncodeChar d ++ y := by
  have hlt : c.val.toNat < d.val.toNat := h
  have hc := toNat_val_lt c
  have hd := toNat_val_lt d
  -- every byte but the first one holds six bits of the code point
  have twelve : ∀ n : Nat, n / 4096 = n / 64 / 64 := fun n => (Nat.div_div_eq_div_mul n 64 64).symm
  have eighteen : ∀ n : Nat, n / 262144 = n / 64 / 64 / 64 := fun n => by
    rw [← twelve, Nat.div_div_eq_div_mul]
  simp only [utf8EncodeChar, twelve, eighteen]
  generalize c.val.toNat = v at *
  generalize d.val.toNat = w at *
  split_ifs <;>
    simp (disch := omega) only [List.cons_append, List.nil_append, ofNat_cons_lt_iff] <;> omega

theorem flatMap_encode_lt {l m : List Char} (h : l < m) :
    l.flatMap utf8EncodeChar < m.flatMap utf8EncodeChar := by
  induction h with
  | @nil d m =>
    obtain ⟨b, x, hb⟩ := List.exists_cons_of_ne_nil (String.utf8EncodeChar_ne_nil (c := d))
    rw [List.flatMap_nil, List.flatMap_cons, hb]
    exact List.nil_lt_cons _ _
  | rel h => exact encode_append_lt h _ _
  | cons _ ih => exact List.append_left_lt ih

/-- **A smaller text has smaller bytes.** -/
theorem bytes_lt_bytes {s t : String} (h : s < t) : bytes s < bytes t := by
  rw [bytes_eq_flatMap, bytes_eq_flatMap]
  exact flatMap_encode_lt (String.lt_iff.1 h)

end LicenseExpr
