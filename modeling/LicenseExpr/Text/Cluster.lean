/-
  Clusters: characters that are not to be parted.

  A cluster is a character with the marks behind it.  A joiner behind a
  picture adds another picture to its cluster, and two indicators are one
  cluster, since they are a flag.

  * `clusters` are the clusters of a text;
  * `clusters_flatten`: they hold its characters in their order.
-/
import LicenseExpr.Text.CharWidth
import LicenseExpr.Text.Emoji

namespace LicenseExpr

/-- What a cluster ends with, as far as it decides what can be added. -/
inductive ClusterEnd where
  | other
  | picture
  /-- A picture and a joiner. -/
  | joiner
  /-- A single indicator. -/
  | indicator
  deriving DecidableEq

/-- Whether a character is a picture or can be shown as one; digits and marks
    that are keys do not count. -/
def isPictorial (c : Char) : Bool :=
  isPicture c || (0x7F < c.toNat && hasTwoForms c)

/-- Whether a character is a mark on the one before it. -/
def isMark (c : Char) : Bool :=
  charWidth c = 0 || isTone c

/-- The end of a cluster of one character. -/
def ClusterEnd.of (c : Char) : ClusterEnd :=
  if isPictorial c then .picture
  else if isIndicator c then .indicator
  else .other

/-- The end of a cluster to which a character is added, if it can be. -/
def ClusterEnd.add? (e : ClusterEnd) (c : Char) : Option ClusterEnd :=
  match e, isMark c with
  | .picture, true => some (if c = '\u200D' then .joiner else .picture)
  | _, true => some .other
  | .joiner, false => if isPictorial c then some .picture else none
  | .indicator, false => if isIndicator c then some .other else none
  | _, false => none

/-- The clusters before a place, the last one first, and each with its last
    character first. -/
structure Clustering where
  full : List (List Char)
  last : List Char
  ending : ClusterEnd

namespace Clustering

/-- Puts a character to the last cluster, or begins another one with it. -/
def push (k : Clustering) (c : Char) : Clustering :=
  match k.ending.add? c with
  | some e => ⟨k.full, c :: k.last, e⟩
  | none => ⟨k.last :: k.full, [c], .of c⟩

/-- The clusters in their order. -/
def toList (k : Clustering) : List (List Char) :=
  ((k.last :: k.full).map List.reverse).reverse

theorem flatten_push (k : Clustering) (c : Char) :
    (k.push c).toList.flatten = k.toList.flatten ++ [c] := by
  simp only [push]
  split <;> simp [toList]

end Clustering

/-- The clusters of a text. -/
def clusters : List Char → List (List Char)
  | [] => []
  | c :: cs => (cs.foldl Clustering.push ⟨[], [c], .of c⟩).toList

theorem foldl_push_flatten (cs : List Char) (k : Clustering) :
    (cs.foldl Clustering.push k).toList.flatten = k.toList.flatten ++ cs := by
  induction cs generalizing k with
  | nil => simp
  | cons c cs ih => simp [ih, Clustering.flatten_push]

/-- The clusters of a text hold its characters in their order. -/
theorem clusters_flatten (cs : List Char) : (clusters cs).flatten = cs := by
  cases cs with
  | nil => rfl
  | cons c cs =>
    rw [clusters, foldl_push_flatten]
    simp [Clustering.toList]

end LicenseExpr
