/-
  The canonical text of an expression.

  * `text` is the definition by recursion: a leaf is its id (with `+` for "or
    later"), a compound is its operands around the operator, and an operand
    stands in parentheses exactly if it is a compound that binds looser than
    its parent (`needsParens`);
  * `print` is the program: a list of pending pieces in place of recursion;
  * `print_eq_text`: the two agree on every tree.
-/
import LicenseExpr.Expr.Basic

namespace LicenseExpr

namespace Expr

/-- Whether a tree needs parentheses as an operand of `parent`: it is a
    compound, and its operator binds strictly looser. -/
def needsParens (parent : Operator) (e : Expr) : Bool :=
  match e.operator? with
  | some op => decide (op.precedence < parent.precedence)
  | none => false

/-! ## The text by recursion -/

/-- A text in parentheses. -/
def parenthesized (s : String) : String :=
  "(" ++ s ++ ")"

/-- A license id with its `+`. -/
def licenseText (id : String) (orLater : Bool) : String :=
  if orLater then id ++ "+" else id

/-- The text of a tree. -/
def text : Expr → String
  | license id orLater => licenseText id orLater
  | exception id => id
  | compound l op r =>
    (if l.needsParens op then parenthesized l.text else l.text) ++ (" " ++ op.word ++ " ") ++
      (if r.needsParens op then parenthesized r.text else r.text)

/-! ## The text by a list of pending pieces -/

/-- What is still to be written. -/
inductive Piece where
  | node (e : Expr)
  | operator (op : Operator)
  | opening
  | closing

/-- A node outweighs the pieces that it is replaced by. -/
def Piece.weight : Piece → Nat
  | node e => 6 * e.size
  | _ => 1

/-- The pieces of an operand of `parent`. -/
def operandPieces (parent : Operator) (e : Expr) : List Piece :=
  if e.needsParens parent then [.opening, .node e, .closing] else [.node e]

/-- Writes the pending pieces after `written`. -/
def printOnto : List Piece → String → String
  | [], written => written
  | .opening :: pending, written => printOnto pending (written ++ "(")
  | .closing :: pending, written => printOnto pending (written ++ ")")
  | .operator op :: pending, written => printOnto pending (written ++ " " ++ op.word ++ " ")
  | .node (license id orLater) :: pending, written =>
    printOnto pending (written ++ licenseText id orLater)
  | .node (exception id) :: pending, written => printOnto pending (written ++ id)
  | .node (compound l op r) :: pending, written =>
    printOnto (operandPieces op l ++ .operator op :: (operandPieces op r ++ pending)) written
  termination_by pending => total Piece.weight pending
  decreasing_by
    all_goals simp only [total_cons, total_append]
    all_goals try simp only [Piece.weight]; omega
    · have := size_pos (license id orLater); simp only [Piece.weight]; omega
    · have := size_pos (exception id); simp only [Piece.weight]; omega
    · simp only [operandPieces, Piece.weight, size]
      split <;> split <;> simp [Piece.weight] <;> omega

/-- The canonical text of an expression. -/
def print (e : Expr) : String :=
  printOnto [.node e] ""

/-! ## Agreement -/

/-- What a piece contributes. -/
def Piece.text : Piece → String
  | node e => e.text
  | operator op => " " ++ op.word ++ " "
  | opening => "("
  | closing => ")"

/-- The text of pending pieces, from first to last. -/
def textOf (pending : List Piece) : String :=
  String.join (pending.map Piece.text)

@[simp] theorem textOf_nil : textOf [] = "" := rfl

@[simp] theorem textOf_cons (p : Piece) (pending : List Piece) :
    textOf (p :: pending) = p.text ++ textOf pending := by
  apply String.toList_inj.1
  simp [textOf, String.toList_join]

@[simp] theorem textOf_append (p q : List Piece) : textOf (p ++ q) = textOf p ++ textOf q := by
  apply String.toList_inj.1
  simp [textOf, String.toList_join]

theorem textOf_operandPieces (parent : Operator) (e : Expr) :
    textOf (operandPieces parent e) =
      if e.needsParens parent then parenthesized e.text else e.text := by
  unfold operandPieces
  split <;> simp [Piece.text, parenthesized, String.append_assoc]

theorem printOnto_eq (pending : List Piece) (written : String) :
    printOnto pending written = written ++ textOf pending := by
  fun_induction printOnto pending written with
  | case1 => simp
  | case2 pending written ih => simp [ih, Piece.text, String.append_assoc]
  | case3 pending written ih => simp [ih, Piece.text, String.append_assoc]
  | case4 op pending written ih => rw [ih]; simp [Piece.text, String.append_assoc]
  | case5 id orLater pending written ih => simp [ih, Piece.text, text, String.append_assoc]
  | case6 id pending written ih => simp [ih, Piece.text, text, String.append_assoc]
  | case7 l op r pending written ih =>
    simp only [ih, textOf_append, textOf_cons, textOf_operandPieces]
    simp [Piece.text, text, String.append_assoc]

/-- The program writes the text of the tree. -/
theorem print_eq_text (e : Expr) : e.print = e.text := by
  simp [print, printOnto_eq, Piece.text]

end Expr

instance : ToString Expr := ⟨Expr.print⟩

end LicenseExpr
