/-
  Why and where a text is no license expression.

  A `SyntaxError` names a `Cause`, the byte offset of the offending fragment,
  and the fragment itself, which is empty at the end of the text.  `message`
  puts the three into one line.
-/

namespace LicenseExpr

namespace SyntaxError

/-- Why a text is refused. -/
inductive Cause where
  /-- A character that is in no token. -/
  | malformedToken
  /-- A text without tokens. -/
  | emptyExpression
  /-- A parenthesis without its partner. -/
  | unmatchedParenthesis
  /-- An operator where an operand should start. -/
  | unexpectedOperator
  /-- A token that cannot stand where it does. -/
  | unexpectedToken
  /-- The text ends where an operand should start. -/
  | unexpectedEnd
  /-- `WITH` after something that is not a single license. -/
  | invalidWithOperand
  /-- `WITH` that no bare exception id follows. -/
  | expectedException
  /-- Too many parentheses open at once. -/
  | nestingTooDeep
  deriving DecidableEq

/-- The cause in words. -/
def Cause.text : Cause → String
  | malformedToken => "malformed token"
  | emptyExpression => "empty expression"
  | unmatchedParenthesis => "unmatched parenthesis"
  | unexpectedOperator => "unexpected operator"
  | unexpectedToken => "unexpected token"
  | unexpectedEnd => "unexpected end of expression"
  | invalidWithOperand => "WITH must follow a single license id"
  | expectedException => "expected an exception id"
  | nestingTooDeep => "parentheses nested too deeply"

end SyntaxError

/-- A refused text: the cause, and the fragment that it is about with the
    number of bytes before it. -/
structure SyntaxError where
  cause : SyntaxError.Cause
  offset : Nat
  fragment : String
  deriving DecidableEq

/-- The error in one line. -/
def SyntaxError.message (e : SyntaxError) : String :=
  e.cause.text ++ " at offset " ++ toString e.offset ++ ": `" ++ e.fragment ++ "`"

end LicenseExpr
