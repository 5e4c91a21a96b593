/-
  Copying a tree with two stacks.

  * `runCopy` works off a list of steps: a visit of a leaf puts a copy of it
    on the stack of built trees, a visit of a compound schedules its operands
    and a join, and a join replaces the two topmost trees by their compound;
  * `copy?` starts with a visit of the root and expects one built tree at the
    end.  A join that found fewer than two trees would make it `none`.
-/
import LicenseExpr.Expr.Basic

namespace LicenseExpr

namespace Expr

/-- A step of copying. -/
inductive CopyStep where
  /-- Build the copy of this tree. -/
  | visit (e : Expr)
  /-- Join the two trees built last. -/
  | join (op : Operator)

/-- A visit outweighs the steps that it schedules. -/
def CopyStep.weight : CopyStep → Nat
  | visit e => 2 * e.size
  | join _ => 1

/-- Works off the steps; the stack has the tree built last at its head. -/
def runCopy : List CopyStep → List Expr → Option (List Expr)
  | [], built => some built
  | .visit (license id orLater) :: steps, built => runCopy steps (license id orLater :: built)
  | .visit (exception id) :: steps, built => runCopy steps (exception id :: built)
  | .visit (compound l op r) :: steps, built =>
    runCopy (.visit l :: .visit r :: .join op :: steps) built
  | .join op :: steps, r :: l :: built => runCopy steps (compound l op r :: built)
  | .join _ :: _, _ => none
  termination_by steps => total CopyStep.weight steps
  decreasing_by all_goals simp [CopyStep.weight, size]; try omega

/-- A copy of a tree, built from its leaves upwards. -/
def copy? (e : Expr) : Option Expr :=
  match runCopy [.visit e] [] with
  | some [copied] => some copied
  | _ => none

end Expr

end LicenseExpr
