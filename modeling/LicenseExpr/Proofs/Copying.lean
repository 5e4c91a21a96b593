/-
  How a tree is copied.

  * `copyTurn` is one turn of the copying loop: the next step is a visit, which
    builds a leaf or gives way to the steps of a compound, or it is a join;
  * `runCopy_visit`: whatever has been built and whatever is left to do, all
    that a visit of a tree comes to is that the tree has been built;
  * `copy_exact`: so for every tree the loop ends, no join lacks an operand,
    and one tree has been built in the end, the same as the original.
-/
import LicenseExpr.Expr.Copy
import LicenseExpr.Proofs.Loop

namespace LicenseExpr

namespace Expr

/-! ## The loop of copying -/

/-- One turn of copying.  The state is the steps that are left, with the next
    one at its head, and the trees that have been built, with the last one at
    its head.  The loop is left with what has been built, or with nothing at a
    join that does not find two trees. -/
def copyTurn : List CopyStep × List Expr → Turn (List CopyStep × List Expr) (Option (List Expr))
  | ([], built) => .leave (some built)
  | (.visit (license id orLater) :: steps, built) => .next (steps, license id orLater :: built)
  | (.visit (exception id) :: steps, built) => .next (steps, exception id :: built)
  | (.visit (compound l op r) :: steps, built) =>
    .next (.visit l :: .visit r :: .join op :: steps, built)
  | (.join op :: steps, r :: l :: built) => .next (steps, compound l op r :: built)
  | (.join _ :: _, _) => .leave none

/-- Copying is the loop of these turns, each of which takes weight off the
    steps that are left. -/
theorem computedBy_copyTurn : Loop.ComputedBy copyTurn (fun s => total CopyStep.weight s.1)
    (fun s => runCopy s.1 s.2) where
  keeps s := by
    fun_cases copyTurn s with
    | case6 op steps built h =>
      rw [runCopy, Turn.value]
      exact h
    | _ => rw [runCopy]; rfl
  shrinks s t h := by
    revert h
    fun_cases copyTurn s with
    | case1 | case6 => rintro ⟨⟩
    | case2 | case3 | case4 | case5 =>
      rintro ⟨⟩
      simp only [total_cons, CopyStep.weight, size]
      omega

/-! ## What the steps build -/

section
variable {op : Operator} {steps : List CopyStep} {built final : List Expr}

/-- **A visit builds the tree**, on top of what has been built, before any other
    step is taken. -/
theorem runCopy_visit (e : Expr) (steps : List CopyStep) (built : List Expr) :
    runCopy (.visit e :: steps) built = runCopy steps (e :: built) := by
  induction e generalizing steps built with
  | license id orLater => rw [runCopy]
  | exception id => rw [runCopy]
  | compound l op r ihl ihr =>
    -- the right operand is built last, so the join finds it on top
    calc runCopy (.visit (compound l op r) :: steps) built
      _ = runCopy (.visit l :: .visit r :: .join op :: steps) built := by rw [runCopy]
      _ = runCopy (.visit r :: .join op :: steps) (l :: built) := ihl _ _
      _ = runCopy (.join op :: steps) (r :: l :: built) := ihr _ _
      _ = runCopy steps (compound l op r :: built) := by rw [runCopy]

/-- A join without two trees spoils what the steps come to. -/
theorem two_le_of_runCopy_join (h : runCopy (.join op :: steps) built = some final) :
    2 ≤ built.length := by
  match built with
  | [] | [_] => simp [runCopy] at h
  | _ :: _ :: rest => exact Nat.le_add_left 2 rest.length

end

/-- **A copy is the tree itself.**  For every tree, whatever its shape, the loop
    ends.  Every join on the way finds two trees, no more than one tree has been
    built when no step is left, and that tree is the original. -/
theorem copy_exact (e : Expr) :
    (∃ n, n ≤ 2 * e.size + 1 ∧
      ∀ r, Loop.Ends copyTurn ([.visit e], []) n r ↔ r = some [e]) ∧
    (∀ op steps built, Loop.Reaches copyTurn ([.visit e], []) (.join op :: steps, built) →
      2 ≤ built.length) ∧
    (∀ built, Loop.Reaches copyTurn ([.visit e], []) ([], built) → built = [e]) ∧
    e.copy? = some e := by
  have hrun : runCopy [.visit e] [] = some [e] := by rw [runCopy_visit, runCopy]
  refine ⟨?_, ?_, ?_, by rw [copy?, hrun]⟩
  · have hends := computedBy_copyTurn.ends ([.visit e], [])
    simpa only [total_cons, total_nil, CopyStep.weight, Nat.add_zero, hrun] using hends
  · intro op steps built h
    have hjoin : runCopy (.join op :: steps) built = some [e] :=
      (computedBy_copyTurn.value_eq h).trans hrun
    exact two_le_of_runCopy_join hjoin
  · intro built h
    have hend : runCopy [] built = some [e] := (computedBy_copyTurn.value_eq h).trans hrun
    rw [runCopy] at hend
    exact Option.some.inj hend

end Expr

end LicenseExpr
