/-
  Splitting JSON text into lexemes.

  `lex` walks over the text once.  Between lexemes it skips blanks; a word is
  a run of letters, digits, `+`, `-` and `.`, and is a keyword or a number; in
  a string it resolves escapes, two of which may form one character.
-/
import LicenseExpr.Json.Basic

namespace LicenseExpr

namespace Json

/-- A lexeme of JSON text. -/
inductive Lexeme where
  /-- A bracket, a brace, a colon or a comma. -/
  | mark (c : Char)
  | literal (value : Json)
  | string (s : String)

/-! ## Words -/

/-- A character of a keyword or a number. -/
def isWordChar (c : Char) : Bool :=
  c.isAlphanum || c == '+' || c == '-' || c == '.'

/-- The value of a decimal digit. -/
def digitValue (c : Char) : Nat :=
  c.toNat - 48

/-- The digits at the front of a text, and what follows. -/
def spanDigits (cs : List Char) : List Nat × List Char :=
  ((cs.takeWhile Char.isDigit).map digitValue, cs.dropWhile Char.isDigit)

/-- The number that a list of digits spells. -/
def ofDigits (ds : List Nat) : Nat :=
  ds.foldl (fun n d => 10 * n + d) 0

/-- The exponent of a number: `e` or `E`, a sign, and digits. -/
def readExponent : List Char → Option (Option Int)
  | [] => some none
  | c :: rest =>
    if c = 'e' ∨ c = 'E' then
      let (negative, rest) := match rest with
        | '-' :: r => (true, r)
        | '+' :: r => (false, r)
        | r => (false, r)
      match spanDigits rest with
      | ([], _) => none
      | (ds, []) => some (some (if negative then -(ofDigits ds : Int) else ofDigits ds))
      | _ => none
    else none

/-- The number that a word spells: no leading zeros, and at least one digit
    on both sides of a point. -/
def readNumber (word : List Char) : Option Number :=
  let (negative, rest) := match word with
    | '-' :: r => (true, r)
    | r => (false, r)
  match spanDigits rest with
  | ([], _) => none
  | (0 :: _ :: _, _) => none
  | (whole, '.' :: rest) =>
    match spanDigits rest with
    | ([], _) => none
    | (fraction, rest) => (readExponent rest).map (⟨negative, whole, some fraction, ·⟩)
  | (whole, rest) => (readExponent rest).map (⟨negative, whole, none, ·⟩)

/-- The value of a word; too large a number is none. -/
def readWord (word : List Char) : Option Json :=
  match word with
  | ['n', 'u', 'l', 'l'] => some .null
  | ['t', 'r', 'u', 'e'] => some (.bool true)
  | ['f', 'a', 'l', 's', 'e'] => some (.bool false)
  | _ =>
    match readNumber word with
    | some n => if n.value?.isSome then some (.number n) else none
    | none => none

/-! ## Strings -/

/-- The value of a hexadecimal digit. -/
def hexValue? (c : Char) : Option Nat :=
  if c.isDigit then some (c.toNat - 48)
  else if 'a' ≤ c ∧ c ≤ 'f' then some (c.toNat - 87)
  else if 'A' ≤ c ∧ c ≤ 'F' then some (c.toNat - 55)
  else none

/-- The character of an escape that is a single letter. -/
def unescape? (c : Char) : Option Char :=
  match c with
  | '"' => some '"'
  | '\\' => some '\\'
  | '/' => some '/'
  | 'b' => some '\x08'
  | 'f' => some '\x0c'
  | 'n' => some '\n'
  | 'r' => some '\r'
  | 't' => some '\t'
  | _ => none

/-- The first half of a pair of code units that form one character. -/
def isHighUnit (n : Nat) : Bool :=
  0xD800 ≤ n && n ≤ 0xDBFF

/-- The second half of such a pair. -/
def isLowUnit (n : Nat) : Bool :=
  0xDC00 ≤ n && n ≤ 0xDFFF

/-! ## The walk -/

/-- Where the walk is; characters that have been read are kept with the last
    one first. -/
inductive Mode where
  | between
  | word (read : List Char)
  /-- In a string, possibly after the first half of a pair. -/
  | string (read : List Char) (high : Option Nat)
  | escape (read : List Char) (high : Option Nat)
  /-- In the hexadecimal digits of a code unit. -/
  | unit (read : List Char) (high : Option Nat) (missing value : Nat)

/-- Adds a complete code unit to a string. -/
def addUnit (read : List Char) (high : Option Nat) (value : Nat) : Option Mode :=
  match high with
  | some h =>
    if isLowUnit value then
      some (.string (Char.ofNat (0x10000 + (h - 0xD800) * 0x400 + (value - 0xDC00)) :: read) none)
    else none
  | none =>
    if isHighUnit value then some (.string read (some value))
    else if isLowUnit value then none
    else some (.string (Char.ofNat value :: read) none)

/-- A character between lexemes. -/
def stepBetween (c : Char) (found : List Lexeme) : Option (Mode × List Lexeme) :=
  if c = ' ' ∨ c = '\n' ∨ c = '\r' ∨ c = '\t' then some (.between, found)
  else if c = '"' then some (.string [] none, found)
  else if c ∈ ['\x7b', '\x7d', '[', ']', ':', ','] then some (.between, .mark c :: found)
  else if isWordChar c then some (.word [c], found)
  else none

/-- The mode and the lexemes after one more character. -/
def step (mode : Mode) (c : Char) (found : List Lexeme) : Option (Mode × List Lexeme) :=
  match mode with
  | .between => stepBetween c found
  | .word read =>
    if isWordChar c then some (.word (c :: read), found)
    else do stepBetween c (.literal (← readWord read.reverse) :: found)
  | .string read high =>
    if c = '\\' then some (.escape read high, found)
    else if high.isSome then none
    else if c = '"' then some (.between, .string (String.ofList read.reverse) :: found)
    else if c.toNat < 0x20 then none
    else some (.string (c :: read) none, found)
  | .escape read high =>
    if c = 'u' then some (.unit read high 4 0, found)
    else if high.isSome then none
    else do return (.string ((← unescape? c) :: read) none, found)
  | .unit read high missing value => do
    let value := 16 * value + (← hexValue? c)
    if missing ≤ 1 then return (← addUnit read high value, found)
    else return (.unit read high (missing - 1) value, found)

/-- Walks over the text. -/
def lexFrom : List Char → Mode → List Lexeme → Option (List Lexeme)
  | [], .between, found => some found.reverse
  | [], .word read, found => do return (.literal (← readWord read.reverse) :: found).reverse
  | [], _, _ => none
  | c :: rest, mode, found =>
    match step mode c found with
    | some (mode, found) => lexFrom rest mode found
    | none => none

/-- The lexemes of a text. -/
def lex (text : String) : Option (List Lexeme) :=
  lexFrom text.toList .between []

end Json

end LicenseExpr
