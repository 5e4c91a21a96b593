/-
  License expressions as trees.

  * `Expr` has two kinds of leaves, licenses and exceptions, and compounds of
    two operands under an operator.  Every shape is allowed here: the parser
    yields only trees in which an exception stands to the right of `WITH`;
  * `Leaf` is a leaf of a tree by itself;
  * `size` counts the nodes.  Chains may be tens of thousands of operands
    long, so the walks over trees in the neighbouring modules keep their own
    list of pending work, and they end because the total size of what is
    pending decreases (`total`).
-/
import LicenseExpr.Operator

namespace LicenseExpr

/-- The sum of `f` over a list. -/
def total {α : Type} (f : α → Nat) : List α → Nat
  | [] => 0
  | a :: l => f a + total f l

section
variable {α : Type} (f : α → Nat)

@[simp] theorem total_nil : total f [] = 0 := rfl

@[simp] theorem total_cons (a : α) (l : List α) : total f (a :: l) = f a + total f l := rfl

@[simp] theorem total_append (l m : List α) : total f (l ++ m) = total f l + total f m := by
  induction l with
  | nil => simp
  | cons a l ih => simp [ih, Nat.add_assoc]

end

/-- A license expression. -/
inductive Expr where
  /-- A license; `orLater` stands for the suffix `+`. -/
  | license (id : String) (orLater : Bool)
  /-- An exception to a license. -/
  | exception (id : String)
  /-- Two operands joined by an operator. -/
  | compound (left : Expr) (op : Operator) (right : Expr)
  deriving DecidableEq, Inhabited

namespace Expr

/-- The number of nodes. -/
def size : Expr → Nat
  | license _ _ => 1
  | exception _ => 1
  | compound l _ r => l.size + r.size + 1

theorem size_pos (e : Expr) : 0 < e.size := by
  cases e <;> simp [size]

/-- The nodes of several trees together: the measure of a list of pending
    trees. -/
def sizes (es : List Expr) : Nat :=
  total size es

@[simp] theorem sizes_nil : sizes [] = 0 := rfl

@[simp] theorem sizes_cons (e : Expr) (es : List Expr) : sizes (e :: es) = e.size + sizes es := rfl

/-- The operator at the root, if the tree is a compound. -/
def operator? : Expr → Option Operator
  | compound _ op _ => some op
  | _ => none

/-- The operands and the operator of a compound. -/
def parts? : Expr → Option (Expr × Operator × Expr)
  | compound l op r => some (l, op, r)
  | _ => none

/-- Whether the tree is a single license. -/
def isLicense : Expr → Bool
  | license _ _ => true
  | _ => false

end Expr

/-- A leaf of a tree. -/
inductive Leaf where
  | license (id : String) (orLater : Bool)
  | exception (id : String)
  deriving DecidableEq

namespace Leaf

/-- The license id of a leaf, without regard to `+`; exceptions have none. -/
def licenseId? : Leaf → Option String
  | license id _ => some id
  | exception _ => none

/-- The tree that is just this leaf. -/
def toExpr : Leaf → Expr
  | license id orLater => .license id orLater
  | exception id => .exception id

end Leaf

end LicenseExpr
