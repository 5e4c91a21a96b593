/-
  Expressions in data formats, and in JSON.

  An expression is written as its canonical text in a string, and read from a
  string.  How strings are written and read is up to the format:

  * `serialize` and `deserialize` go through any `StringFormat`;
  * `Json.valueFormat` are JSON values; its `ReadError` says what was found
    instead of a string, or why the text in the string is no expression;
  * `toJson` and `ofJson` are the way to JSON values and back.
-/
import LicenseExpr.Expr.Printer
import LicenseExpr.Json.Basic
import LicenseExpr.Parser

namespace LicenseExpr

/-- What an expression needs of a data format: data of the format are of type
    `δ`, its errors of type `ε`. -/
structure StringFormat (δ ε : Type) where
  /-- Writes a string. -/
  write : String → Except ε δ
  /-- Reads a string. -/
  read : δ → Except ε String
  /-- The error with a message of one's own. -/
  custom : String → ε

namespace Expr

section
variable {δ ε : Type}

/-- Writes an expression: its canonical text as a string. -/
def serialize (F : StringFormat δ ε) (e : Expr) : Except ε δ :=
  F.write e.print

/-- Reads an expression: a string, and the expression that its text denotes. -/
def deserialize (F : StringFormat δ ε) (data : δ) : Except ε Expr :=
  match F.read data with
  | .error err => .error err
  | .ok text =>
    match parse text with
    | .ok e => .ok e
    | .error err => .error (F.custom err.message)

end

end Expr

/-! ## JSON -/

namespace Json

/-- Why a JSON value is no expression. -/
inductive ReadError where
  /-- The value is no string. -/
  | notString (j : Json)
  /-- The string is no expression, for the reason that the message gives. -/
  | malformed (message : String)

/-- What a value is, in words. -/
def describe : Json → String
  | null => "null"
  | bool b => "boolean `" ++ (if b then "true" else "false") ++ "`"
  | number n =>
    match n.value? with
    | some (.integer i) => "integer `" ++ toString i ++ "`"
    | some (.floating negative x) =>
      "floating point `" ++ (if negative then "-" else "") ++ x.text ++ "`"
    | none => "number"
  | string s => "string " ++ quote s
  | array _ => "sequence"
  | object _ => "map"

/-- The error in one line. -/
def ReadError.message : ReadError → String
  | notString j => "invalid type: " ++ j.describe ++ ", expected a string"
  | malformed message => message

/-- JSON values as a format. -/
def valueFormat : StringFormat Json ReadError where
  write s := .ok (.string s)
  read
    | .string s => .ok s
    | j => .error (.notString j)
  custom := .malformed

end Json

namespace Expr

/-- An expression as a JSON value. -/
def toJson (e : Expr) : Json :=
  .string e.print

/-- The expression that a JSON value holds. -/
def ofJson (j : Json) : Except Json.ReadError Expr :=
  deserialize Json.valueFormat j

end Expr

end LicenseExpr
