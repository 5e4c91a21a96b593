/-
  ASCII text: the alphabet of identifiers, and the comparison of texts that
  ignores the case of ASCII letters.

  * `isIdChar` is the alphabet of identifiers: ASCII letters and digits, `.`
    and `-`;
  * `foldCase` lowers the ASCII letters of a text and keeps everything else,
    so `foldCase s = foldCase t` says that `s` and `t` are equal up to ASCII
    case (`sameFolded`);
  * folding keeps the number of characters, and folding twice is folding once.
-/

namespace LicenseExpr

/-- A character that may stand in an identifier. -/
def isIdChar (c : Char) : Bool :=
  c.isAlphanum || c == '.' || c == '-'

/-- The text with its ASCII letters in lower case; no other character is
    changed, so `É` and `é` stay different. -/
def foldCase (s : String) : String :=
  s.map Char.toLower

/-- Equality up to the case of ASCII letters. -/
def sameFolded (s t : String) : Bool :=
  foldCase s == foldCase t

theorem sameFolded_iff {s t : String} : sameFolded s t = true ↔ foldCase s = foldCase t := by
  simp [sameFolded]

theorem toList_foldCase (s : String) : (foldCase s).toList = s.toList.map Char.toLower := by
  simp [foldCase, String.toList_map]

/-- Lowering moves the letters from `A` to `Z` and no other character. -/
theorem val_toLower (c : Char) :
    c.toLower.val =
      if c.val ≥ 'A'.val ∧ c.val ≤ 'Z'.val then c.val + ('a'.val - 'A'.val) else c.val := by
  delta Char.toLower
  split <;> rfl

/-- Folding a character twice is folding it once. -/
theorem toLower_toLower (c : Char) : c.toLower.toLower = c.toLower := by
  apply Char.ext
  rw [val_toLower c.toLower, if_neg]
  rw [val_toLower c]
  split
  · next h =>
    obtain ⟨h₁, h₂⟩ := h
    simp only [ge_iff_le, UInt32.le_iff_toNat_le, UInt32.toNat_add] at *
    simp at *
    omega
  · next h => exact h
theorem foldCase_foldCase (s : String) : foldCase (foldCase s) = foldCase s := by
  apply String.toList_inj.1
  simp only [toList_foldCase, List.map_map]
  exact List.map_congr_left fun c _ => toLower_toLower c

end LicenseExpr
