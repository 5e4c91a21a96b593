/-
  How an expression is printed.

  * `Renders e s`: the text of `e` is `s`, rule by rule; an operand stands in
    parentheses exactly if it is a compound that binds looser than its parent
    (`RendersUnder`);
  * `printTurn` is one turn of the printer: the first pending piece is written,
    or gives way to the pieces of a compound;
  * `print_renders`: for every tree the loop of these turns ends, and it ends
    with the one text that the rules give.
-/
import LicenseExpr.Proofs.Loop
import LicenseExpr.Proofs.Printing

namespace LicenseExpr

namespace Expr

/-! ## The text, rule by rule -/

/-- A compound that binds strictly looser than `parent`. -/
inductive Looser (parent : Operator) : Expr → Prop
  | compound {l op r} : op.precedence < parent.precedence → Looser parent (compound l op r)

mutual
/-- The text of an expression. -/
inductive Renders : Expr → String → Prop
  | license {id} : Renders (license id false) id
  | orLater {id} : Renders (license id true) (id ++ "+")
  | exception {id} : Renders (exception id) id
  | compound {l op r s t} : RendersUnder op l s → RendersUnder op r t →
      Renders (compound l op r) (s ++ " " ++ op.word ++ " " ++ t)

/-- The text of an operand of `parent`. -/
inductive RendersUnder : Operator → Expr → String → Prop
  | bare {parent e s} : ¬ Looser parent e → Renders e s → RendersUnder parent e s
  | enclosed {parent e s} : Looser parent e → Renders e s →
      RendersUnder parent e ("(" ++ s ++ ")")
end

section
variable {parent : Operator} {e : Expr} {s : String}

theorem needsParens_iff_looser : e.needsParens parent = true ↔ Looser parent e := by
  constructor
  · intro h
    cases e with
    | license | exception => cases h
    | compound l op r => exact .compound (of_decide_eq_true h)
  · rintro ⟨h⟩
    exact decide_eq_true h

theorem rendersUnder_iff (he : ∀ s, Renders e s ↔ s = e.text) :
    RendersUnder parent e s ↔ s = e.operandText parent := by
  rw [operandText]
  constructor
  · intro h
    cases h with
    | bare hl h => rw [if_neg (mt needsParens_iff_looser.1 hl), (he _).1 h]
    | enclosed hl h => rw [if_pos (needsParens_iff_looser.2 hl), (he _).1 h, parenthesized]
  · rintro rfl
    split
    · next h => exact .enclosed (needsParens_iff_looser.1 h) ((he _).2 rfl)
    · next h => exact .bare (mt needsParens_iff_looser.2 h) ((he _).2 rfl)

/-- **The rules give every tree one text.** -/
theorem renders_iff (e : Expr) (s : String) : Renders e s ↔ s = e.text := by
  induction e generalizing s with
  | license id orLater =>
    cases orLater with
    | false => exact ⟨fun | .license => rfl, fun h => h ▸ .license⟩
    | true => exact ⟨fun | .orLater => rfl, fun h => h ▸ .orLater⟩
  | exception id => exact ⟨fun | .exception => rfl, fun h => h ▸ .exception⟩
  | compound l op r ihl ihr =>
    constructor
    · intro h
      cases h with
      | compound hl hr =>
        rw [(rendersUnder_iff ihl).1 hl, (rendersUnder_iff ihr).1 hr, text_compound]
        simp only [String.append_assoc]
    · rintro rfl
      have hl : RendersUnder op l (l.operandText op) := (rendersUnder_iff ihl).2 rfl
      have hr : RendersUnder op r (r.operandText op) := (rendersUnder_iff ihr).2 rfl
      simpa only [text_compound, String.append_assoc] using Renders.compound hl hr

end

/-! ## The loop of the printer -/

/-- One turn of the printer.  The state is what is pending, with the next piece
    at its head, and what has been written. -/
def printTurn : List Piece × String → Turn (List Piece × String) String
  | ([], written) => .leave written
  | (.opening :: pending, written) => .next (pending, written ++ "(")
  | (.closing :: pending, written) => .next (pending, written ++ ")")
  | (.operator op :: pending, written) => .next (pending, written ++ " " ++ op.word ++ " ")
  | (.node (license id orLater) :: pending, written) =>
    .next (pending, written ++ licenseText id orLater)
  | (.node (exception id) :: pending, written) => .next (pending, written ++ id)
  | (.node (compound l op r) :: pending, written) =>
    .next (operandPieces op l ++ .operator op :: (operandPieces op r ++ pending), written)

theorem total_operandPieces_le (parent : Operator) (e : Expr) :
    total Piece.weight (operandPieces parent e) ≤ 6 * e.size + 2 := by
  rw [operandPieces]
  split
  · simp only [total_cons, total_nil, Piece.weight]
    omega
  · simp only [total_cons, total_nil, Piece.weight]
    omega

/-- The printer is the loop of these turns, each of which takes weight off what
    is pending. -/
theorem computedBy_printTurn : Loop.ComputedBy printTurn (fun s => total Piece.weight s.1)
    (fun s => printOnto s.1 s.2) where
  keeps s := by fun_cases printTurn s <;> rw [printOnto] <;> rfl
  shrinks s t h := by
    fun_cases printTurn s <;> rw [printTurn] at h <;> cases h <;>
      simp only [total_append, total_cons, Piece.weight, size]
    case case7 l op r pending written =>
      have hl := total_operandPieces_le op l
      have hr := total_operandPieces_le op r
      omega
    all_goals omega

/-- **The printer writes what the rules give**: for every tree, whatever its
    shape, its loop ends, and with the one text of the tree. -/
theorem print_renders (e : Expr) :
    (∃ n, n ≤ 6 * e.size + 1 ∧ ∀ s, Loop.Ends printTurn ([.node e], "") n s ↔ s = e.print) ∧
      ∀ s, Renders e s ↔ s = e.print := by
  constructor
  · have hends := computedBy_printTurn.ends ([.node e], "")
    simpa only [total_cons, total_nil, Piece.weight, Nat.add_zero, print] using hends
  · intro s
    rw [print_eq_text]
    exact renders_iff e s

end Expr

end LicenseExpr
