/-
  How trees are compared.

  * a `Path` leads from the root of a tree down to a node, and `node?` is the
    node that it leads to; trees with the same nodes at the same places are the
    same (`eq_of_node?`);
  * `compareTurn` is one turn of the comparison: the first pending pair is
    found to differ, or is dropped, or gives way to the pairs of its operands;
  * `same_decides`: for any two trees the loop of these turns ends, and it tells
    whether they have the same nodes everywhere.
-/
import LicenseExpr.Expr.Leaves
import LicenseExpr.Expr.Same
import LicenseExpr.Proofs.Loop

namespace LicenseExpr

namespace Expr

/-! ## Places in a tree -/

/-- A side of a compound. -/
inductive Side where
  | left
  | right

/-- The way from the root of a tree down to a node. -/
abbrev Path := List Side

/-- The node at the root: a leaf, or the operator of a compound. -/
def root : Expr → Node
  | license id orLater => .leaf (.license id orLater)
  | exception id => .leaf (.exception id)
  | compound _ op _ => .operator op

/-- The node that a path leads to, if it stays in the tree. -/
def node? : Expr → Path → Option Node
  | e, [] => some e.root
  | compound l _ _, .left :: path => l.node? path
  | compound _ _ r, .right :: path => r.node? path
  | _, _ :: _ => none

/-- **Trees are the same if their nodes are**, at every place. -/
theorem eq_of_node? {a b : Expr} (h : ∀ path, a.node? path = b.node? path) : a = b := by
  have hroot := h []
  induction a generalizing b with
  | license id orLater =>
    cases b with
    | license => rw [node?, node?, root, root] at hroot; cases hroot; rfl
    | exception | compound => rw [node?, node?, root, root] at hroot; cases hroot
  | exception id =>
    cases b with
    | exception => rw [node?, node?, root, root] at hroot; cases hroot; rfl
    | license | compound => rw [node?, node?, root, root] at hroot; cases hroot
  | compound l op r ihl ihr =>
    cases b with
    | license | exception => rw [node?, node?, root, root] at hroot; cases hroot
    | compound l' op' r' =>
      rw [node?, node?, root, root] at hroot
      cases hroot
      have hl : ∀ path, l.node? path = l'.node? path := fun path => h (.left :: path)
      have hr : ∀ path, r.node? path = r'.node? path := fun path => h (.right :: path)
      rw [ihl hl (hl []), ihr hr (hr [])]

/-! ## The loop of the comparison -/

/-- One turn of the comparison.  The state is what is pending, with the next
    pair at its head. -/
def compareTurn : List (Expr × Expr) → Turn (List (Expr × Expr)) Bool
  | [] => .leave true
  | (license a x, license b y) :: pending =>
    if a ≠ b ∨ x ≠ y then .leave false else .next pending
  | (exception a, exception b) :: pending => if a ≠ b then .leave false else .next pending
  | (compound l₁ o₁ r₁, compound l₂ o₂ r₂) :: pending =>
    if o₁ ≠ o₂ then .leave false else .next ((l₁, l₂) :: (r₁, r₂) :: pending)
  | _ :: _ => .leave false

/-- The comparison is the loop of these turns, each of which takes a node off
    the left trees of what is pending. -/
theorem computedBy_compareTurn : Loop.ComputedBy compareTurn
    (fun pending => sizes (pending.map (·.1))) sameAll where
  keeps pending := by
    fun_cases compareTurn pending with
    | case1 => rw [sameAll, Turn.value]
    | case2 _ _ _ _ _ h | case4 _ _ _ h | case6 _ _ _ _ _ _ _ h =>
      rw [sameAll, if_pos h, Turn.value]
    | case3 _ _ _ _ _ h | case5 _ _ _ h | case7 _ _ _ _ _ _ _ h =>
      rw [sameAll, if_neg h, Turn.value]
    | case8 => rw [sameAll, Turn.value] <;> assumption
  shrinks pending t h := by
    revert h
    fun_cases compareTurn pending with
    | case1 | case2 | case4 | case6 | case8 => rintro ⟨⟩
    | case3 | case5 | case7 =>
      rintro ⟨⟩
      simp only [List.map_cons, sizes_cons, size]
      omega

/-- **Comparing decides sameness**: for any two trees the loop ends, and with
    `true` exactly if at every place they have the same node, or none.  So it is
    an equivalence. -/
theorem same_decides :
    (∀ a b : Expr,
      (∃ n, n ≤ a.size + 1 ∧ ∀ r, Loop.Ends compareTurn [(a, b)] n r ↔ r = a.same b) ∧
        (a.same b = true ↔ a = b) ∧ (a = b ↔ ∀ path, a.node? path = b.node? path)) ∧
      Equivalence fun a b : Expr => a.same b = true := by
  have hsame : ∀ a b : Expr, a.same b = true ↔ a = b := by
    intro a b
    rw [same, sameAll_iff, List.forall_mem_singleton]
  refine ⟨fun a b => ⟨?_, hsame a b, fun h _ => h ▸ rfl, eq_of_node?⟩, ?_⟩
  · have hends := computedBy_compareTurn.ends [(a, b)]
    simpa only [List.map_cons, List.map_nil, sizes_cons, sizes_nil, Nat.add_zero, same] using hends
  · simp only [hsame]
    exact ⟨Eq.refl, Eq.symm, Eq.trans⟩

end Expr

end LicenseExpr
