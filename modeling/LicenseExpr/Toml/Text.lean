/-
  Blanks, comments, strings and keys of TOML.

  A reader takes what is left of the text and answers with what it has read
  and the rest, or with nothing if the text is malformed.  Where it repeats a
  step, `bound` is a number of steps that is enough: more than there are
  characters in the whole text.

  * `skipBlanks` skips blanks and tabs, `lineEnd?` also a comment and then
    expects the end of the line or of the text;
  * `string?` reads the four kinds of strings; in those of several lines a
    line end directly behind the opening quotes is dropped, every line end
    becomes `\n`, and up to two quotes may stand before the closing ones;
  * `key?` reads a key of one or more parts.
-/
import LicenseExpr.Toml.Scalar

namespace LicenseExpr

namespace Toml

/-- A reader of some part of a text. -/
abbrev Reader (α : Type) := List Char → Option (α × List Char)

/-! ## Blanks and comments -/

/-- A blank inside a line. -/
def isInlineBlank (c : Char) : Bool :=
  c == ' ' || c == '\t'

/-- The text without the blanks at its front. -/
def skipBlanks (cs : List Char) : List Char :=
  cs.dropWhile isInlineBlank

/-- A character that may stand in comments and strings: no control character
    except the tab. -/
def isPlain (c : Char) : Bool :=
  c == '\t' || (0x20 ≤ c.toNat && c.toNat ≠ 0x7F)

/-- The text after a line end. -/
def newline? (cs : List Char) : Option (List Char) :=
  match cs with
  | '\n' :: rest => some rest
  | '\r' :: '\n' :: rest => some rest
  | _ => none

/-- The text after a comment, if there is one here. -/
def skipComment (cs : List Char) : List Char :=
  match cs with
  | '#' :: rest => rest.dropWhile isPlain
  | rest => rest

/-- The text after the rest of a line, which is blank or a comment. -/
def lineEnd? (cs : List Char) : Option (List Char) :=
  match skipComment (skipBlanks cs) with
  | [] => some []
  | rest => newline? rest

/-- Skips blanks, line ends and comments. -/
def skipLines : Nat → List Char → List Char
  | 0, cs => cs
  | fuel + 1, cs =>
    match skipBlanks cs with
    | '#' :: rest => skipLines fuel (rest.dropWhile isPlain)
    | rest =>
      match newline? rest with
      | some rest => skipLines fuel rest
      | none => rest

/-! ## Strings -/

/-- The character with a code, if there is one. -/
def charOf? (n : Nat) : Option Char :=
  if n < 0xD800 ∨ (0xDFFF < n ∧ n < 0x110000) then some (Char.ofNat n) else none

/-- The character with a code of `n` hexadecimal digits. -/
def unicode? (n : Nat) : Reader Char := fun cs =>
  let ds := cs.take n
  if ds.length = n ∧ ds.all (isDigitOf 16) then
    (charOf? (ofDigits 16 ds)).map (·, cs.drop n)
  else none

/-- The character that an escape stands for, behind its backslash. -/
def escape? : Reader Char := fun cs =>
  match cs with
  | 'b' :: rest => some ('\x08', rest)
  | 't' :: rest => some ('\t', rest)
  | 'n' :: rest => some ('\n', rest)
  | 'f' :: rest => some ('\x0c', rest)
  | 'r' :: rest => some ('\r', rest)
  | '"' :: rest => some ('"', rest)
  | '\\' :: rest => some ('\\', rest)
  | 'u' :: rest => unicode? 4 rest
  | 'U' :: rest => unicode? 8 rest
  | _ => none

/-- The rest of a string of one line behind its opening quote, after the
    characters that have been read, the last one first. -/
def lineString? (quote : Char) : Nat → List Char → Reader String
  | 0, _, _ => none
  | fuel + 1, read, cs =>
    match cs with
    | [] => none
    | c :: rest =>
      if c = quote then some (String.ofList read.reverse, rest)
      else if c = '\\' ∧ quote = '"' then
        match escape? rest with
        | some (d, rest) => lineString? quote fuel (d :: read) rest
        | none => none
      else if isPlain c then lineString? quote fuel (c :: read) rest
      else none

/-- Whether a text is blank up to the end of its line. -/
def endsLine (cs : List Char) : Bool :=
  (newline? (skipBlanks cs)).isSome

/-- Skips blanks and line ends. -/
def skipBlankLines : List Char → List Char
  | '\r' :: '\n' :: rest => skipBlankLines rest
  | c :: rest => if isInlineBlank c || c == '\n' then skipBlankLines rest else c :: rest
  | [] => []

/-- The rest of a string of several lines behind its opening quotes. -/
def blockString? (quote : Char) : Nat → List Char → Reader String
  | 0, _, _ => none
  | fuel + 1, read, cs =>
    match cs with
    | [] => none
    | c :: rest =>
      if c = quote then
        let run := (cs.takeWhile (· == quote)).length
        if run < 3 then blockString? quote fuel (c :: read) rest
        else
          let inside := min (run - 3) 2
          some (String.ofList (List.replicate inside quote ++ read).reverse, cs.drop (inside + 3))
      else if c = '\\' ∧ quote = '"' then
        if endsLine rest then blockString? quote fuel read (skipBlankLines rest)
        else
          match escape? rest with
          | some (d, rest) => blockString? quote fuel (d :: read) rest
          | none => none
      else
        match newline? cs with
        | some rest => blockString? quote fuel ('\n' :: read) rest
        | none => if isPlain c then blockString? quote fuel (c :: read) rest else none

/-- A string of any kind; the first line end of a string of several lines is
    dropped. -/
def string? (bound : Nat) : Reader String := fun cs =>
  match cs with
  | '"' :: '"' :: '"' :: rest => blockString? '"' bound [] ((newline? rest).getD rest)
  | '"' :: rest => lineString? '"' bound [] rest
  | '\'' :: '\'' :: '\'' :: rest => blockString? '\'' bound [] ((newline? rest).getD rest)
  | '\'' :: rest => lineString? '\'' bound [] rest
  | _ => none

/-! ## Keys -/

/-- A character of an unquoted key. -/
def isKeyChar (c : Char) : Bool :=
  c.isAlphanum || c == '-' || c == '_'

/-- One part of a key: a string of one line, or a word. -/
def keyPart? (bound : Nat) : Reader String := fun cs =>
  match cs with
  | '"' :: rest => lineString? '"' bound [] rest
  | '\'' :: rest => lineString? '\'' bound [] rest
  | _ =>
    match cs.takeWhile isKeyChar with
    | [] => none
    | word => some (String.ofList word, cs.dropWhile isKeyChar)

/-- The most levels of nesting, of parts of a key and of values. -/
def maxNesting : Nat := 80

/-- The parts of a key, at most `n` many, with the blanks around them. -/
def keyParts? (bound : Nat) : Nat → Reader (List String)
  | 0, _ => none
  | n + 1, cs =>
    match keyPart? bound (skipBlanks cs) with
    | none => none
    | some (part, rest) =>
      match skipBlanks rest with
      | '.' :: rest =>
        match keyParts? bound n rest with
        | some (parts, rest) => some (part :: parts, rest)
        | none => none
      | rest => some ([part], rest)

/-- A key with fewer parts than the limit, and the blanks around it. -/
def key? (bound : Nat) : Reader (List String) :=
  keyParts? bound (maxNesting - 1)

end Toml

end LicenseExpr
