/-
  Reading a license expression.

  The grammar, from the loosest to the tightest operator:

      expression  :=  and-chain ( OR and-chain )*
      and-chain   :=  with-term ( AND with-term )*
      with-term   :=  atom ( WITH exception-id )?
      atom        :=  license-id  |  ( expression )

  * a `Reader` takes the part of the input that is still unread and either
    accepts a tree, rejects the input at some token, or has stalled;
  * `atom`, `withTerm` and `chainOf` take the readers of their parts as
    arguments, and `expression n` ties the knot for inputs in which at most
    `n` expressions are nested in one another.  At most `maxDepth`
    parentheses may be open at once, so `maxDepth + 1` nested expressions are
    enough and nothing stalls;
  * operands of `AND` and `OR` are joined into chains that group to the left
    (`Expr.chain`), and legacy ids are replaced as soon as they are read;
  * `read` is the whole: tokens, tree, the check of what is left over, and
    the events on the way, which are kept when the input is refused.
-/
import LicenseExpr.Expr.Chain
import LicenseExpr.Legacy
import LicenseExpr.Token.Lexer

namespace LicenseExpr

namespace Parser

/-- The most parentheses that may be open at once. -/
def maxDepth : Nat := 128

/-! ## Readers -/

/-- Where reading has got to.  A token counts as read once it has been accepted:
    behind a refusal, the cursor still stands in front of a token that was taken
    only to be refused.  No reader goes on from there. -/
structure Cursor where
  /-- The tokens that are still unread. -/
  rest : List Token
  /-- The number of parentheses that are open. -/
  depth : Nat
  /-- What has happened so far, the latest first. -/
  log : List Event

/-- Moves on to `rest` and logs `events`, which happened in this order. -/
def Cursor.advance (c : Cursor) (rest : List Token) (events : List Event) : Cursor :=
  { c with rest := rest, log := events.reverse ++ c.log }

/-- The outcome of reading. -/
inductive Outcome where
  /-- A tree, and where reading can go on. -/
  | accepted (e : Expr) (after : Cursor)
  /-- A refusal: the cause, the unread tokens from the offending one on
      (none at the end of the input), and where reading had got to. -/
  | rejected (cause : SyntaxError.Cause) (site : List Token) (last : Cursor)
  /-- More nested expressions than the reader was made for. -/
  | stalled

/-- A reader of some part of the grammar. -/
abbrev Reader := Cursor → Outcome

/-! ## The grammar -/

/-- Reads a license id or an expression in parentheses; `inner` reads the
    expression.  A token that is taken and refused, as an atom or in place of
    the closing parenthesis, stays unread. -/
def atom (inner : Reader) : Reader := fun c =>
  match c.rest with
  | [] => .rejected .unexpectedEnd [] c
  | t :: rest =>
    match t.kind with
    | .id word plus =>
      .accepted (resolveLicense word plus) (c.advance rest (licenseEvents word plus))
    | .operator _ => .rejected .unexpectedOperator c.rest c
    | .closing =>
      .rejected (if c.depth = 0 then .unmatchedParenthesis else .unexpectedToken) c.rest c
    | .opening =>
      if maxDepth ≤ c.depth then .rejected .nestingTooDeep c.rest c
      else
        match inner { c with rest := rest, depth := c.depth + 1 } with
        | .accepted e after =>
          match after.rest with
          | [] => .rejected .unmatchedParenthesis c.rest after
          | u :: beyond =>
            if u.kind = .closing then
              .accepted e { after with rest := beyond, depth := after.depth - 1 }
            else .rejected .unexpectedToken after.rest after
        | refused => refused

/-- Whether the next token is the operator `op`. -/
def startsWith (op : Operator) (ts : List Token) : Bool :=
  match ts with
  | t :: _ => t.kind == .operator op
  | [] => false

/-- Reads the exception id behind `WITH` as an exception to `license`; no
    second `WITH` may follow.  A token that is taken and refused as an
    exception id stays unread. -/
def exceptionTo (license : Expr) : Reader := fun c =>
  match c.rest with
  | [] => .rejected .expectedException [] c
  | t :: rest =>
    match t.kind with
    | .id word false =>
      let after := c.advance rest (exceptionEvents word)
      if startsWith .withException rest then .rejected .invalidWithOperand rest after
      else .accepted (.compound license .withException (resolveException word)) after
    | _ => .rejected .expectedException c.rest c

/-- Reads an atom, with an exception to it if `WITH` follows. -/
def withTerm (inner : Reader) : Reader := fun c =>
  match atom inner c with
  | .accepted e after =>
    if startsWith .withException after.rest then
      if e.isLicense then exceptionTo e { after with rest := after.rest.tail }
      else .rejected .invalidWithOperand after.rest after
    else .accepted e after
  | refused => refused

/-- Reads further operands for as long as `op` follows, at most `bound` many,
    and appends them to the chain `e`. -/
def moreOperands (operand : Reader) (op : Operator) : Nat → Expr → Reader
  | 0, e, c => .accepted e c
  | bound + 1, e, c =>
    if startsWith op c.rest then
      match operand { c with rest := c.rest.tail } with
      | .accepted r after => moreOperands operand op bound (e.chain op r) after
      | refused => refused
    else .accepted e c

/-- Reads a chain of one or more operands under `op`.  Each further operand
    takes its operator from the input, so the number of tokens bounds how many
    there are. -/
def chainOf (operand : Reader) (op : Operator) (bound : Nat) : Reader := fun c =>
  match operand c with
  | .accepted e after => moreOperands operand op bound e after
  | refused => refused

/-- Reads an expression in which at most `n` expressions are nested, itself
    included; `bound` is the number of tokens of the whole input. -/
def expression (bound : Nat) : Nat → Reader
  | 0 => fun _ => .stalled
  | n + 1 => chainOf (chainOf (withTerm (expression bound n)) .and bound) .or bound

/-- Checks what is left over after a complete expression: nothing, or closing
    parentheses only, which are dropped with a warning. -/
def finish (e : Expr) (c : Cursor) : Outcome :=
  match c.rest with
  | [] => .accepted e c
  | t :: _ =>
    if c.rest.all (·.kind == .closing) then
      .accepted e (c.advance c.rest [.ignoredClosings t.offset c.rest.length])
    else
      .rejected (if t.kind = .closing then .unmatchedParenthesis else .unexpectedToken) c.rest c

/-- Reads a whole list of tokens, for which at most `n` expressions are
    nested. -/
def readTokens (n : Nat) (ts : List Token) : Outcome :=
  match expression ts.length n ⟨ts, 0, []⟩ with
  | .accepted e after => finish e after
  | refused => refused

/-- The error that is reported for a refusal at `site` in a text of `size`
    bytes. -/
def errorAt (size : Nat) (cause : SyntaxError.Cause) (site : List Token) : SyntaxError :=
  match site with
  | [] => ⟨cause, size, ""⟩
  | t :: _ => ⟨cause, t.offset, t.text⟩

end Parser

/-! ## Texts -/

/-- What comes of reading a text: a tree or an error, and the events on the
    way in the order in which they happened. -/
structure Reading where
  result : Except SyntaxError Expr
  events : List Event

/-- Reads a text.  `Parser.maxDepth + 1` nested expressions suffice for every
    input, so the last case does not arise. -/
def read (text : String) : Reading :=
  match Token.tokenize text with
  | .error e => ⟨.error e, []⟩
  | .ok [] => ⟨.error ⟨.emptyExpression, 0, text⟩, []⟩
  | .ok ts =>
    match Parser.readTokens (Parser.maxDepth + 1) ts with
    | .accepted e after => ⟨.ok e, after.log.reverse⟩
    | .rejected cause site last =>
      ⟨.error (Parser.errorAt text.utf8ByteSize cause site), last.log.reverse⟩
    | .stalled => ⟨.error ⟨.nestingTooDeep, 0, text⟩, []⟩

/-- The expression that a text denotes, with legacy ids replaced. -/
def parse (text : String) : Except SyntaxError Expr :=
  (read text).result

end LicenseExpr
