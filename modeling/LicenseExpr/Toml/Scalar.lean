/-
  Scalars of TOML that are written without quotes: booleans, integers, floats
  and date-times.

  Such a scalar is a run of letters, digits and `+ - _ . :`, and the whole run
  has to be of one of the forms below (`scalar?`).  Underscores may stand
  between two digits; integers fit into 64 bits with a sign; a float may not
  be so large that it would be infinite, unless it is negative; the days of a
  date exist in the calendar.
-/
import LicenseExpr.Decimal.Binary64
import LicenseExpr.Toml.Value

namespace LicenseExpr

namespace Toml

/-- A character of an unquoted scalar. -/
def isScalarChar (c : Char) : Bool :=
  c.isAlphanum || c == '+' || c == '-' || c == '_' || c == '.' || c == ':'

/-! ## Digits -/

/-- The value of a digit, of any base up to sixteen. -/
def digitValue (c : Char) : Nat :=
  if c.isDigit then c.toNat - 48
  else if c.isLower then c.toNat - 87
  else c.toNat - 55

/-- Whether a character is a digit of a base. -/
def isDigitOf (base : Nat) (c : Char) : Bool :=
  (c.isDigit || ('a' ≤ c && c ≤ 'f') || ('A' ≤ c && c ≤ 'F')) && digitValue c < base

/-- The number that digits spell. -/
def ofDigits (base : Nat) (cs : List Char) : Nat :=
  cs.foldl (fun n c => base * n + digitValue c) 0

/-- The digits of a text in which every underscore stands between two digits;
    there is at least one digit. -/
def digits? (base : Nat) : List Char → Option (List Char)
  | [] => none
  | c :: rest =>
    if isDigitOf base c then
      match rest with
      | [] => some [c]
      | '_' :: more => (digits? base more).map (c :: ·)
      | more => (digits? base more).map (c :: ·)
    else none

/-- The sign of a number, and what follows. -/
def splitSign (cs : List Char) : Bool × List Char :=
  match cs with
  | '-' :: rest => (true, rest)
  | '+' :: rest => (false, rest)
  | rest => (false, rest)

/-- The digits of a decimal integer without a sign: no zero in front of
    another digit. -/
def decimalDigits? (cs : List Char) : Option (List Char) :=
  match digits? 10 cs with
  | some ('0' :: _ :: _) => none
  | ds => ds

/-! ## Integers -/

/-- An integer that fits into 64 bits with a sign. -/
def bounded? (n : Int) : Option Int :=
  if -0x8000000000000000 ≤ n ∧ n < 0x8000000000000000 then some n else none

/-- An integer: decimal with an optional sign, or hexadecimal, octal or
    binary. -/
def integer? (cs : List Char) : Option Int :=
  match cs with
  | '0' :: 'x' :: rest => do bounded? (ofDigits 16 (← digits? 16 rest))
  | '0' :: 'o' :: rest => do bounded? (ofDigits 8 (← digits? 8 rest))
  | '0' :: 'b' :: rest => do bounded? (ofDigits 2 (← digits? 2 rest))
  | _ => do
    let (negative, rest) := splitSign cs
    let n := ofDigits 10 (← decimalDigits? rest)
    bounded? (if negative then -n else n)

/-! ## Floats -/

/-- Whether `digits * 10 ^ e` is too large for a finite number of 64 bits. -/
def overflows (digits : List Char) (e : Int) : Bool :=
  let significant := digits.dropWhile (· == '0')
  let places := significant.length + e
  if significant.isEmpty || places < 300 then false
  else if 400 < places then true
  else
    let ratio := Binary64.timesPower (ofDigits 10 significant) 10 e
    (Binary64.ofRatio? ratio.1 ratio.2).isNone

/-- The exponent of a float: `e` or `E`, a sign, and digits. -/
def exponent? (cs : List Char) : Option Int :=
  match cs with
  | c :: rest =>
    if c = 'e' ∨ c = 'E' then do
      let (negative, rest) := splitSign rest
      let n := ofDigits 10 (← digits? 10 rest)
      return if negative then -n else n
    else none
  | [] => none

/-- Whether a character starts an exponent. -/
def isExponentMark (c : Char) : Bool :=
  c == 'e' || c == 'E'

/-- The digits and the power of ten of a float without a sign: a fraction, an
    exponent, or both follow an integer. -/
def decimal? (cs : List Char) : Option (List Char × Int) := do
  let whole ← decimalDigits? (cs.takeWhile fun c => c.isDigit || c == '_')
  match cs.dropWhile fun c => c.isDigit || c == '_' with
  | '.' :: rest =>
    let fraction ← digits? 10 (rest.takeWhile fun c => !isExponentMark c)
    match rest.dropWhile fun c => !isExponentMark c with
    | [] => return (whole ++ fraction, -(fraction.length : Int))
    | tail => return (whole ++ fraction, (← exponent? tail) - fraction.length)
  | tail => return (whole, ← exponent? tail)

/-- Whether a text is a float. -/
def isFloat (cs : List Char) : Bool :=
  let (negative, rest) := splitSign cs
  if rest = ['i', 'n', 'f'] ∨ rest = ['n', 'a', 'n'] then true
  else match decimal? rest with
    | some (ds, e) => negative || !overflows ds e
    | none => false

/-! ## Date-times -/

/-- A number of exactly `n` digits, and what follows. -/
def fixed? (n : Nat) (cs : List Char) : Option (Nat × List Char) :=
  let ds := cs.take n
  if ds.length = n ∧ ds.all Char.isDigit then some (ofDigits 10 ds, cs.drop n) else none

/-- The text after an expected character. -/
def after? (c : Char) (cs : List Char) : Option (List Char) :=
  match cs with
  | d :: rest => if d = c then some rest else none
  | [] => none

/-- The number of days of a month. -/
def daysOf (year month : Nat) : Nat :=
  if month = 2 then
    if year % 4 = 0 ∧ (year % 100 ≠ 0 ∨ year % 400 = 0) then 29 else 28
  else if month = 4 ∨ month = 6 ∨ month = 9 ∨ month = 11 then 30
  else 31

/-- A date, and what follows. -/
def date? (cs : List Char) : Option (List Char) := do
  let (year, cs) ← fixed? 4 cs
  let (month, cs) ← fixed? 2 (← after? '-' cs)
  let (day, cs) ← fixed? 2 (← after? '-' cs)
  if 1 ≤ month ∧ month ≤ 12 ∧ 1 ≤ day ∧ day ≤ daysOf year month then some cs else none

/-- A time of day, possibly with a fraction of a second, and what follows. -/
def time? (cs : List Char) : Option (List Char) := do
  let (hour, cs) ← fixed? 2 cs
  let (minute, cs) ← fixed? 2 (← after? ':' cs)
  let (second, cs) ← fixed? 2 (← after? ':' cs)
  if hour ≤ 23 ∧ minute ≤ 59 ∧ second ≤ 60 then
    match cs with
    | '.' :: rest =>
      if (rest.takeWhile Char.isDigit).isEmpty then none else some (rest.dropWhile Char.isDigit)
    | _ => some cs
  else none

/-- Whether a text is an offset from universal time. -/
def isOffset (cs : List Char) : Bool :=
  match cs with
  | ['Z'] => true
  | ['z'] => true
  | c :: rest =>
    (c == '+' || c == '-') &&
      (do
        let (hour, cs) ← fixed? 2 rest
        let (minute, cs) ← fixed? 2 (← after? ':' cs)
        if hour ≤ 23 ∧ minute ≤ 59 ∧ cs = [] then some () else none).isSome
  | [] => false

/-- Whether a text is a time of day with or without an offset. -/
def isZonedTime (cs : List Char) : Bool :=
  match time? cs with
  | some rest => rest.isEmpty || isOffset rest
  | none => false

/-- Whether a text is a date, a time of day, or both; date and time are
    separated by `T`, `t` or a blank. -/
def isDateTime (cs : List Char) : Bool :=
  time? cs == some [] ||
    (match date? cs with
     | some [] => true
     | some (c :: rest) => (c == 'T' || c == 't' || c == ' ') && isZonedTime rest
     | none => false)

/-! ## Scalars -/

/-- The value of an unquoted scalar. -/
def scalar? (cs : List Char) : Option Value :=
  if cs = ['t', 'r', 'u', 'e'] then some (.boolean true)
  else if cs = ['f', 'a', 'l', 's', 'e'] then some (.boolean false)
  else if isDateTime cs then some (.dateTime (String.ofList cs))
  else if isFloat cs then some (.float (String.ofList cs))
  else (integer? cs).map .integer

/-- Splits an unquoted scalar off a text.  A date takes the time behind a
    blank with it. -/
def spanScalar (cs : List Char) : List Char × List Char :=
  let word := cs.takeWhile isScalarChar
  match cs.dropWhile isScalarChar with
  | ' ' :: rest =>
    if date? word == some [] && ((rest.head?.map Char.isDigit).getD false) then
      (word ++ ' ' :: rest.takeWhile isScalarChar, rest.dropWhile isScalarChar)
    else (word, ' ' :: rest)
  | rest => (word, rest)

end Toml

end LicenseExpr
