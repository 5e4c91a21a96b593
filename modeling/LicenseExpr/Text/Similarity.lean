/-
  Similarity of words: whether one may be meant for the other.

  Two words share the characters that they have in places not too far apart
  (`shared`).  They are similar (`isSimilar`) if seven tenths are reached by
  the mean of three shares: of the first word, of the second, and of the
  shared characters that stand in the same order in both.
-/

namespace LicenseExpr

/-- The places of a second word that are shared so far, and the characters of
    the first word that share them, the last one first. -/
structure Sharing where
  places : List Nat
  characters : List Char

/-- Shares a character at a place with the first equal one that is not shared
    yet and not farther away than the reach. -/
def Sharing.add (second : List Char) (reach : Nat) (s : Sharing) (c : Char × Nat) : Sharing :=
  let free (d : Char × Nat) : Bool :=
    d.1 = c.1 && c.2 - reach ≤ d.2 && d.2 ≤ c.2 + reach && !s.places.contains d.2
  match second.zipIdx.find? free with
  | some d => ⟨d.2 :: s.places, c.1 :: s.characters⟩
  | none => s

/-- The characters that two words share, in the order of the first and in that
    of the second. -/
def shared (first second : List Char) : List Char × List Char :=
  let reach := max first.length second.length / 2 - 1
  let s := first.zipIdx.foldl (Sharing.add second reach) ⟨[], []⟩
  (s.characters.reverse, (second.zipIdx.filter fun d => s.places.contains d.2).map (·.1))

/-- Whether two words are similar. -/
def isSimilar (first second : String) : Bool :=
  let a := first.toList
  let b := second.toList
  let (inFirst, inSecond) := shared a b
  let m := inFirst.length
  let moved := (inFirst.zip inSecond).countP fun (x, y) => x ≠ y
  let ordered := m - moved / 2
  21 * a.length * b.length * m <
    10 * (m * m * b.length + m * m * a.length + ordered * a.length * b.length)

end LicenseExpr
