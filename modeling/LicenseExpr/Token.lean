/-
  Tokens of license expressions.

  * a token is a `Kind` at a byte offset: an identifier with or without `+`,
    an operator, or a parenthesis;
  * the written text of a token is determined by its kind (`Kind.text`);
  * `Kind.ofWord` classifies a word: only a bare operator word, in capitals
    and without `+`, is an operator.
-/
import LicenseExpr.Operator

namespace LicenseExpr

namespace Token

/-- What a token is. -/
inductive Kind where
  /-- A license or exception id; `plus` marks a `+` directly behind it. -/
  | id (word : String) (plus : Bool)
  | operator (op : Operator)
  | opening
  | closing
  deriving DecidableEq

/-- The token as it is written, with its `+`. -/
def Kind.text : Kind → String
  | id word plus => if plus then word ++ "+" else word
  | operator op => op.word
  | opening => "("
  | closing => ")"

/-- The kind of a word that is followed by a `+` or not. -/
def Kind.ofWord (word : String) (plus : Bool) : Kind :=
  if plus then .id word true
  else match Operator.ofWord? word with
    | some op => .operator op
    | none => .id word false

/-- Classifying a word keeps its text. -/
theorem Kind.text_ofWord (word : String) (plus : Bool) :
    (Kind.ofWord word plus).text = if plus then word ++ "+" else word := by
  cases plus with
  | true => rfl
  | false =>
    cases h : Operator.ofWord? word with
    | none => simp [ofWord, h, text]
    | some op =>
      simp only [ofWord, h, text]
      simp [Operator.ofWord?_eq_some_iff.1 h]

end Token

/-- A token of an expression. -/
structure Token where
  kind : Token.Kind
  /-- The number of bytes of the text before the token. -/
  offset : Nat
  deriving DecidableEq

/-- The token as it is written. -/
def Token.text (t : Token) : String :=
  t.kind.text

end LicenseExpr
