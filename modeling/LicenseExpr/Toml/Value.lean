/-
  Values of the configuration language TOML, version 1.0.

  Floats and date-times keep the text that they are written with: nothing
  here computes with them.
-/

namespace LicenseExpr

namespace Toml

/-- A value. -/
inductive Value where
  | string (s : String)
  | integer (n : Int)
  | float (text : String)
  | boolean (b : Bool)
  | dateTime (text : String)
  | array (items : List Value)
  | table (fields : List (String × Value))
  deriving Inhabited

/-- The value of a key, if the value is a table that has it. -/
def Value.get? (v : Value) (key : String) : Option Value :=
  match v with
  | table fields => fields.lookup key
  | _ => none

end Toml

end LicenseExpr
