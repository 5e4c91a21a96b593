/-
  Reading TOML documents.

  * `value?` reads a value; arrays and inline tables may be nested less than
    `maxNesting` deep;
  * `statement?` reads a line of the document, a header or a key with its
    value, and `document?` all of them;
  * `parse` reads a whole text, with or without a byte order mark in front.
-/
import LicenseExpr.Toml.Table
import LicenseExpr.Toml.Text

namespace LicenseExpr

namespace Toml

/-! ## Values -/

/-- The items of an array behind its bracket, after those that have been read,
    the last one first. -/
def arrayItems? (value : Reader Value) (bound : Nat) : Nat → List Value → Reader Value
  | 0, _, _ => none
  | fuel + 1, read, cs =>
    match skipLines bound cs with
    | ']' :: rest => some (.array read.reverse, rest)
    | cs =>
      match value cs with
      | none => none
      | some (v, rest) =>
        match skipLines bound rest with
        | ',' :: rest => arrayItems? value bound fuel (v :: read) rest
        | ']' :: rest => some (.array (v :: read).reverse, rest)
        | _ => none

/-- A key, an equals sign and a value. -/
def keyValue? (value : Reader Value) (bound : Nat) : Reader (List String × Value) := fun cs =>
  match key? bound cs with
  | some (path, '=' :: rest) =>
    match value (skipBlanks rest) with
    | some (v, rest) => some ((path, v), rest)
    | none => none
  | _ => none

/-- Adds a key of one or more parts to a table. -/
def insertPath (path : List String) (v : Value) (es : Entries) : Option Entries :=
  match path.getLast? with
  | some key => es.insertKey path.dropLast key v
  | none => none

/-- The fields of an inline table, after those that have been read. -/
def inlineFields? (value : Reader Value) (bound : Nat) : Nat → Entries → Reader Value
  | 0, _, _ => none
  | fuel + 1, es, cs =>
    match keyValue? value bound cs with
    | none => none
    | some ((path, v), rest) =>
      match insertPath path v es with
      | none => none
      | some es =>
        match skipBlanks rest with
        | ',' :: rest => inlineFields? value bound fuel es rest
        | '\x7d' :: rest => some (.table (fieldsOf es), rest)
        | _ => none

/-- A value in which less than `n` arrays and inline tables are nested;
    `bound` is the length of the whole text. -/
def value? (bound : Nat) : Nat → Reader Value
  | 0, _ => none
  | n + 1, cs =>
    match cs with
    | [] => none
    | c :: rest =>
      if c = '"' ∨ c = '\'' then (string? bound cs).map fun r => (.string r.1, r.2)
      else if c = '[' then
        if n = 0 then none else arrayItems? (value? bound n) bound bound [] rest
      else if c = '\x7b' then
        if n = 0 then none
        else
          match skipBlanks rest with
          | '\x7d' :: rest => some (.table [], rest)
          | rest => inlineFields? (value? bound n) bound bound [] rest
      else
        let (word, rest) := spanScalar cs
        (scalar? word).map (·, rest)

/-! ## Documents -/

/-- The document so far, and the header that further keys belong to. -/
structure State where
  entries : Entries
  header : List String

/-- The path of a header behind its bracket, up to `closing`. -/
def headerPath? (bound : Nat) (closing : List Char) : Reader (List String) := fun cs =>
  match key? bound cs with
  | some (path, rest) =>
    if closing.isPrefixOf rest then some (path, rest.drop closing.length) else none
  | none => none

/-- Opens the table or the row that a header names. -/
def openHeader (openAt : List String → String → Entries → Option Entries) (path : List String)
    (s : State) : Option State :=
  match path.getLast? with
  | some key => (openAt path.dropLast key s.entries).map (⟨·, path⟩)
  | none => none

/-- A line of the document, which is not empty. -/
def statement? (bound : Nat) (s : State) (cs : List Char) : Option (State × List Char) := do
  match cs with
  | '[' :: '[' :: rest =>
    let (path, rest) ← headerPath? bound [']', ']'] rest
    return (← openHeader Entries.openRow path s, ← lineEnd? rest)
  | '[' :: rest =>
    let (path, rest) ← headerPath? bound [']'] rest
    return (← openHeader Entries.openTable path s, ← lineEnd? rest)
  | _ =>
    let ((path, v), rest) ← keyValue? (value? bound maxNesting) bound cs
    let key ← path.getLast?
    let entries ← s.entries.insertBelow s.header path.dropLast key v
    return ({ s with entries := entries }, ← lineEnd? rest)

/-- The lines of a document. -/
def document? (bound : Nat) : Nat → State → List Char → Option State
  | 0, _, _ => none
  | fuel + 1, s, cs =>
    match skipBlanks cs with
    | [] => some s
    | c :: rest =>
      if c = '#' ∨ c = '\n' ∨ c = '\r' then
        match lineEnd? (c :: rest) with
        | some rest => document? bound fuel s rest
        | none => none
      else
        match statement? bound s (c :: rest) with
        | some (s, rest) => document? bound fuel s rest
        | none => none

/-- The table that a text denotes. -/
def parse (text : String) : Option Value :=
  let cs := text.toList
  let cs := if cs.head? = some '\uFEFF' then cs.tail else cs
  let bound := cs.length + 1
  (document? bound bound ⟨[], []⟩ cs).map fun s => .table (fieldsOf s.entries)

end Toml

end LicenseExpr
