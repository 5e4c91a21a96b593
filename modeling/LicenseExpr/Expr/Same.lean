/-
  Structural equality of trees, decided with a list of pending pairs.

  * `sameAll` compares pairs until one differs; `same` starts it at the roots;
  * `sameAll_iff`: it answers `true` exactly if the trees of every pending
    pair are equal.
-/
import LicenseExpr.Expr.Basic

namespace LicenseExpr

namespace Expr

/-- Whether the trees of every pair are the same. -/
def sameAll : List (Expr × Expr) → Bool
  | [] => true
  | (license a x, license b y) :: pending =>
    if a ≠ b ∨ x ≠ y then false else sameAll pending
  | (exception a, exception b) :: pending => if a ≠ b then false else sameAll pending
  | (compound l₁ o₁ r₁, compound l₂ o₂ r₂) :: pending =>
    if o₁ ≠ o₂ then false else sameAll ((l₁, l₂) :: (r₁, r₂) :: pending)
  | _ :: _ => false
  termination_by pending => sizes (pending.map (·.1))
  decreasing_by all_goals simp [size]; try omega

/-- Whether two trees are the same: same kinds of nodes, operators, ids and
    "or later" marks at every position. -/
def same (a b : Expr) : Bool :=
  sameAll [(a, b)]

theorem sameAll_iff (pending : List (Expr × Expr)) :
    sameAll pending = true ↔ ∀ p ∈ pending, p.1 = p.2 := by
  fun_induction sameAll pending with
  | case1 => simp
  | case2 a x b y pending h => simp_all; intro h₁; simp_all
  | case3 a x b y pending h ih => simp_all
  | case4 a b pending h => simp_all
  | case5 a b pending h ih => simp_all
  | case6 l₁ o₁ r₁ l₂ o₂ r₂ pending h => simp_all
  | case7 l₁ o₁ r₁ l₂ o₂ r₂ pending h ih => simp_all [and_assoc]
  | case8 p pending h₁ h₂ h₃ =>
    refine iff_of_false Bool.false_ne_true fun h => ?_
    obtain ⟨a, b⟩ := p
    obtain rfl : a = b := h _ List.mem_cons_self
    cases a with
    | license id orLater => exact h₁ _ _ _ _ rfl
    | exception id => exact h₂ _ _ rfl
    | compound l op r => exact h₃ _ _ _ _ _ _ rfl

end Expr

end LicenseExpr
