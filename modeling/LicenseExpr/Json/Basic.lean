/-
  JSON values and how they are written.

  * an object is a list of fields, so the order of its keys is kept;
  * `quote` is the written form of a string: quotes, backslashes and control
    characters below U+0020 are escaped, everything else stands as it is;
  * `compact` writes a value without blanks, `pretty` with one entry a line
    and two blanks of indentation a level.
-/
import LicenseExpr.Json.Number

namespace LicenseExpr

/-- A JSON value. -/
inductive Json where
  | null
  | bool (b : Bool)
  | number (n : Json.Number)
  | string (s : String)
  | array (items : List Json)
  | object (fields : List (String × Json))
  deriving Inhabited

namespace Json

/-- An integer as a value. -/
def ofInt (n : Int) : Json :=
  .number (.ofInt n)

/-- A natural number as a value. -/
def ofNat (n : Nat) : Json :=
  ofInt n

/-- A list of strings as a value. -/
def ofStrings (l : List String) : Json :=
  .array (l.map .string)

/-- A string, or null if there is none. -/
def ofString? : Option String → Json
  | some s => .string s
  | none => .null

/-- The field of an object; null if there is none. -/
def get (j : Json) (key : String) : Json :=
  match j with
  | object fields => (fields.lookup key).getD .null
  | _ => .null

/-! ## Strings -/

/-- A hexadecimal digit in lower case. -/
def hexDigit (n : Nat) : Char :=
  Nat.digitChar (n % 16)

/-- A character inside quotes. -/
def escape (c : Char) : List Char :=
  if c = '"' then ['\\', '"']
  else if c = '\\' then ['\\', '\\']
  else if c = '\x08' then ['\\', 'b']
  else if c = '\x0c' then ['\\', 'f']
  else if c = '\n' then ['\\', 'n']
  else if c = '\r' then ['\\', 'r']
  else if c = '\t' then ['\\', 't']
  else if c.toNat < 0x20 then
    ['\\', 'u', '0', '0', hexDigit (c.toNat / 16), hexDigit c.toNat]
  else [c]

/-- A string in quotes. -/
def quote (s : String) : String :=
  "\"" ++ String.ofList (s.toList.flatMap escape) ++ "\""

/-! ## Numbers -/

/-- The digits of a list of digits. -/
def digitsText (ds : List Nat) : String :=
  String.ofList (ds.map Nat.digitChar)

/-- A number as it is written. -/
def Number.text (n : Number) : String :=
  (if n.negative then "-" else "") ++ digitsText n.whole ++
    (match n.fraction with
     | some ds => "." ++ digitsText ds
     | none => "") ++
    (match n.exponent with
     | some e => "e" ++ toString e
     | none => "")

/-! ## Values -/

mutual
/-- Writes a value without blanks after `written`. -/
def writeCompact (written : String) : Json → String
  | .null => written ++ "null"
  | .bool b => written ++ (if b then "true" else "false")
  | .number n => written ++ n.text
  | .string s => written ++ quote s
  | .array items => writeItems (written ++ "[") "" items ++ "]"
  | .object fields => writeFields (written ++ "\x7b") "" fields ++ "\x7d"

/-- Writes the items of an array, the first one after `separator`. -/
def writeItems (written separator : String) : List Json → String
  | [] => written
  | j :: rest => writeItems (writeCompact (written ++ separator) j) "," rest

/-- Writes the fields of an object, the first one after `separator`. -/
def writeFields (written separator : String) : List (String × Json) → String
  | [] => written
  | (key, j) :: rest =>
    writeFields (writeCompact (written ++ separator ++ quote key ++ ":") j) "," rest
end

/-- A value without blanks. -/
def compact (j : Json) : String :=
  writeCompact "" j

/-- A new line with an indentation. -/
def newline (depth : Nat) : String :=
  "\n" ++ String.ofList (List.replicate (2 * depth) ' ')

mutual
/-- Writes a value over several lines after `written`; the lines of its items
    are indented one level more than `depth`. -/
def writePretty (written : String) (depth : Nat) : Json → String
  | .null => written ++ "null"
  | .bool b => written ++ (if b then "true" else "false")
  | .number n => written ++ n.text
  | .string s => written ++ quote s
  | .array [] => written ++ "[]"
  | .array (j :: rest) =>
    writePrettyItems (writePretty (written ++ "[" ++ newline (depth + 1)) (depth + 1) j)
      (depth + 1) rest ++ newline depth ++ "]"
  | .object [] => written ++ "\x7b\x7d"
  | .object ((key, j) :: rest) =>
    writePrettyFields
      (writePretty (written ++ "\x7b" ++ newline (depth + 1) ++ quote key ++ ": ") (depth + 1) j)
      (depth + 1) rest ++ newline depth ++ "\x7d"

/-- Writes the further items of an array. -/
def writePrettyItems (written : String) (depth : Nat) : List Json → String
  | [] => written
  | j :: rest => writePrettyItems (writePretty (written ++ "," ++ newline depth) depth j) depth rest

/-- Writes the further fields of an object. -/
def writePrettyFields (written : String) (depth : Nat) : List (String × Json) → String
  | [] => written
  | (key, j) :: rest =>
    writePrettyFields
      (writePretty (written ++ "," ++ newline depth ++ quote key ++ ": ") depth j) depth rest
end

/-- A value over several lines. -/
def pretty (j : Json) : String :=
  writePretty "" 0 j

end Json

end LicenseExpr
