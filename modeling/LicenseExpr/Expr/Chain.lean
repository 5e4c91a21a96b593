/-
  Chains: operands joined by one operator, grouped to the left.

  * `chain l op r` appends `r` to the chain that ends in `l`; if `r` is a
    group of the same operator, its operands are appended one by one, so the
    result never has a compound of `op` to the right of `op` unless `l` has;
  * `operands op e` are the operands of `op` in `e` by recursion, and
    `chain_eq_foldl` says that appending is a left fold over them.
-/
import LicenseExpr.Expr.Basic

namespace LicenseExpr

namespace Expr

/-- Appends the operands of the pending trees, in order, to the chain that
    has been built. -/
def chainOnto (op : Operator) : Expr → List Expr → Expr
  | built, [] => built
  | built, compound l o r :: pending =>
    if o = op then chainOnto op built (l :: r :: pending)
    else chainOnto op (compound built op (compound l o r)) pending
  | built, leaf :: pending => chainOnto op (compound built op leaf) pending
  termination_by _ pending => sizes pending
  decreasing_by
    · simp [size]; omega
    · simp [size]
    · have := size_pos leaf; simp; omega

/-- Joins `right` to the chain `left` under `op`, with the groups of `op` in
    `right` dissolved. -/
def chain (left : Expr) (op : Operator) (right : Expr) : Expr :=
  chainOnto op left [right]

/-- The operands of `op` in a tree: those of both sides of a compound of
    `op`, and any other tree itself. -/
def operands (op : Operator) : Expr → List Expr
  | compound l o r => if o = op then l.operands op ++ r.operands op else [compound l o r]
  | e => [e]

theorem chainOnto_eq_foldl (op : Operator) (built : Expr) (pending : List Expr) :
    chainOnto op built pending =
      (pending.flatMap (operands op)).foldl (fun l r => compound l op r) built := by
  fun_induction chainOnto op built pending with
  | case1 => rfl
  | case2 built l r pending ih => simp_all [operands]
  | case3 built l o r pending h ih => simp_all [operands]
  | case4 built leaf pending h ih =>
    cases leaf with
    | compound l o r => exact absurd rfl (h l o r)
    | _ => simp_all [operands]

/-- Appending to a chain is a left fold over the operands. -/
theorem chain_eq_foldl (left : Expr) (op : Operator) (right : Expr) :
    chain left op right = (right.operands op).foldl (fun l r => compound l op r) left := by
  simp [chain, chainOnto_eq_foldl]

end Expr

end LicenseExpr
