/-
  Reading JSON values.

  `read?` walks over the lexemes of a text with a stack of the arrays and
  objects that are still open, of which there may be no more than `maxNesting`
  at once.  A text is one value; of the fields of an object that have the same
  key the last one counts.
-/
import LicenseExpr.Json.Lexer

namespace LicenseExpr

namespace Json

/-- The most arrays and objects that may be open at once. -/
def maxNesting : Nat := 127

/-- An array or object that is still open; its entries have the last one
    first. -/
inductive Frame where
  | array (items : List Json)
  | object (fields : List (String × Json)) (key : String)

/-- What may come next. -/
inductive Expected where
  | value
  /-- A value, or the end of the array that was just opened. -/
  | valueOrEnd
  | key
  /-- A key, or the end of the object that was just opened. -/
  | keyOrEnd
  | colon
  | commaOrEnd
  | nothing (result : Json)

/-- Puts a complete value where it belongs; an earlier field of the same key is
    dropped. -/
def place (j : Json) : List Frame → Expected × List Frame
  | [] => (.nothing j, [])
  | .array items :: frames => (.commaOrEnd, .array (j :: items) :: frames)
  | .object fields key :: frames =>
    (.commaOrEnd, .object ((key, j) :: fields.filter (·.1 ≠ key)) key :: frames)

/-- Closes the innermost array or object. -/
def close (c : Char) (frames : List Frame) : Option (Expected × List Frame) :=
  match frames with
  | .array items :: frames => if c = ']' then some (place (.array items.reverse) frames) else none
  | .object fields _ :: frames =>
    if c = '\x7d' then some (place (.object fields.reverse) frames) else none
  | [] => none

/-- Opens an array or object, in which `expected` may come next. -/
def openFrame (expected : Expected) (frame : Frame) (frames : List Frame) :
    Option (Expected × List Frame) :=
  if frames.length < maxNesting then some (expected, frame :: frames) else none

/-- The start of a value. -/
def startValue (l : Lexeme) (frames : List Frame) : Option (Expected × List Frame) :=
  match l with
  | .literal j => some (place j frames)
  | .string s => some (place (.string s) frames)
  | .mark '[' => openFrame .valueOrEnd (.array []) frames
  | .mark '\x7b' => openFrame .keyOrEnd (.object [] "") frames
  | _ => none

/-- A key of the innermost object. -/
def startField (l : Lexeme) (frames : List Frame) : Option (Expected × List Frame) :=
  match l, frames with
  | .string key, .object fields _ :: frames => some (.colon, .object fields key :: frames)
  | _, _ => none

/-- What is expected after one more lexeme. -/
def advance (expected : Expected) (l : Lexeme) (frames : List Frame) :
    Option (Expected × List Frame) :=
  match expected, l with
  | .value, l => startValue l frames
  | .valueOrEnd, .mark ']' => close ']' frames
  | .valueOrEnd, l => startValue l frames
  | .key, l => startField l frames
  | .keyOrEnd, .mark '\x7d' => close '\x7d' frames
  | .keyOrEnd, l => startField l frames
  | .colon, .mark ':' => some (.value, frames)
  | .commaOrEnd, .mark ',' =>
    match frames with
    | .array _ :: _ => some (.value, frames)
    | .object _ _ :: _ => some (.key, frames)
    | [] => none
  | .commaOrEnd, .mark c => close c frames
  | _, _ => none

/-- Walks over the lexemes. -/
def readFrom : List Lexeme → Expected → List Frame → Option Json
  | [], .nothing j, _ => some j
  | [], _, _ => none
  | l :: rest, expected, frames =>
    match advance expected l frames with
    | some (expected, frames) => readFrom rest expected frames
    | none => none

/-- The value that a text denotes. -/
def read? (text : String) : Option Json := do
  readFrom (← lex text) .value []

end Json

end LicenseExpr
