/-
  Breaking a line that is too wide.

  * a line is broken at blanks, and as many words are put on a line as fit;
  * a word that is too wide for a line of its own is cut between clusters, and
    its first part fills the line begun, unless there is hardly room on it;
  * a line that has hardly room left is full, and what follows begins another;
  * `breakLine` is the whole; a line that fits is left as it is.
-/
import LicenseExpr.Text.Cluster
import LicenseExpr.Text.Width

namespace LicenseExpr

/-- A word as its clusters. -/
abbrev Word := List (List Char)

/-- The text of a word. -/
def Word.text (w : Word) : String := String.ofList w.flatten

/-- The columns of a word. -/
def Word.width (w : Word) : Nat := (columns w.flatten).1.toNat

/-- How many clusters from the first on fit into so many columns, added to a
    number. -/
def Word.fitting (room : Nat) : Word → Nat → Nat
  | [], k => k
  | cluster :: rest, k =>
    let width := (columns cluster).1.toNat
    if width ≤ room then Word.fitting (room - width) rest (k + 1) else k

/-- Cuts a word so that the first part fits. -/
def Word.cut (room : Nat) (w : Word) : Word × Word :=
  let k := w.fitting room 0
  (w.take k, w.drop k)

/-- Cuts a word so that the first part fits, but is not empty. -/
def Word.cutFresh (room : Nat) (w : Word) : Word × Word :=
  match w.cut room with
  | ([], (c :: d :: more) :: rest) => ([[c]], (d :: more) :: rest)
  | ([], cluster :: rest) => ([cluster], rest)
  | parts => parts

/-- Lines on which words are put: the full ones, the last one first, and the
    one begun with its columns. -/
structure Wrapping where
  full : List String
  line : String
  width : Nat

namespace Wrapping

/-- A line with room for at most this many columns is not filled further. -/
def leastRoom : Nat := 2

/-- Ends the line. -/
def close (w : Wrapping) : Wrapping := ⟨w.line :: w.full, "", 0⟩

/-- Ends the line if it is full. -/
def closeIfFull (limit : Nat) (w : Wrapping) : Wrapping :=
  if limit - leastRoom < w.width then w.close else w

/-- Puts a word on the lines; every step but the first two takes a character
    off the word, so their number bounds the steps. -/
def addSteps (limit : Nat) : Nat → Word → Wrapping → Wrapping
  | 0, _, w => w
  | steps + 1, word, w =>
    let width := word.width
    let room := limit - w.width - 1
    if w.line.isEmpty then
      if width ≤ limit then closeIfFull limit ⟨w.full, word.text, width⟩
      else
        let (first, rest) := word.cutFresh limit
        addSteps limit steps rest ⟨first.text :: w.full, "", 0⟩
    else if w.width + 1 + width ≤ limit then
      closeIfFull limit ⟨w.full, w.line ++ " " ++ word.text, w.width + 1 + width⟩
    else if room ≤ leastRoom ∨ width ≤ limit then addSteps limit steps word w.close
    else
      let (first, rest) := word.cut room
      addSteps limit steps rest ⟨(w.line ++ " " ++ first.text) :: w.full, "", 0⟩

/-- Puts a word on the lines. -/
def add (limit : Nat) (w : Wrapping) (word : String) : Wrapping :=
  addSteps limit (word.length + 2) (clusters word.toList) w

/-- The lines in their order. -/
def toList (w : Wrapping) : List String :=
  (if w.line.isEmpty then w.full else w.line :: w.full).reverse

end Wrapping

/-- A line as lines of at most so many columns. -/
def breakLine (limit : Nat) (line : String) : List String :=
  if displayWidth line ≤ limit then [line]
  else ((line.splitOn " ").foldl (Wrapping.add limit) ⟨[], "", 0⟩).toList

theorem breakLine_of_le {limit : Nat} {line : String} (h : displayWidth line ≤ limit) :
    breakLine limit line = [line] := by
  simp [breakLine, h]

end LicenseExpr
