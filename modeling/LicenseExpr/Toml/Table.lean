/-
  Tables under construction.

  A TOML document defines its tables piecemeal, by headers and by dotted keys,
  and some ways to define a table twice are errors.  So a table remembers how
  it came about (`Origin`), and an array of tables grows by headers only.

  * `descend` walks down a path, makes missing tables, and edits the table at
    its end;
  * `insertKey`, `openTable` and `openRow` are what a line `key = value`, a
    header `[path]` and a header `[[path]]` do.
-/
import LicenseExpr.Toml.Value

namespace LicenseExpr

namespace Toml

/-- How a table came about. -/
inductive Origin where
  /-- By a header of its own, or written out as a value. -/
  | defined
  /-- As a table on the way to one with a header. -/
  | implied
  /-- By a dotted key. -/
  | dotted
  deriving DecidableEq

/-- What a key of an unfinished table holds. -/
inductive Item where
  | value (v : Value)
  | table (origin : Origin) (entries : List (String × Item))
  /-- The tables of an array, the last one first. -/
  | rows (tables : List (List (String × Item)))

/-- The keys of an unfinished table with what they hold. -/
abbrev Entries := List (String × Item)

namespace Entries

/-- Replaces what a key holds. -/
def replace (es : Entries) (key : String) (item : Item) : Entries :=
  es.map fun e => if e.1 = key then (key, item) else e

/-- Edits the table at the end of a path with `edit`; missing tables come
    about as `missing`.  A dotted key passes no table that has a header. -/
def descend (missing : Origin) (edit : Origin → Entries → Option Entries) :
    List String → Origin → Entries → Option Entries
  | [], origin, es => edit origin es
  | key :: path, _, es =>
    match es.lookup key with
    | none => do
      let sub ← descend missing edit path missing []
      return es ++ [(key, .table missing sub)]
    | some (.value _) => none
    | some (.table origin sub) =>
      if missing = .dotted ∧ origin = .defined then none
      else do return es.replace key (.table origin (← descend missing edit path origin sub))
    | some (.rows []) => none
    | some (.rows (last :: earlier)) => do
      return es.replace key (.rows ((← descend missing edit path .defined last) :: earlier))

/-- Adds a key that is not there yet. -/
def add (key : String) (v : Value) (es : Entries) : Option Entries :=
  if (es.lookup key).isSome then none else some (es ++ [(key, .value v)])

/-- What a line `key = value` does to the table that it stands in: a dotted
    key ends in a table that dotted keys have made. -/
def insertKey (path : List String) (key : String) (v : Value) (es : Entries) : Option Entries :=
  descend .dotted
    (fun origin es => if path ≠ [] ∧ origin ≠ .dotted then none else es.add key v)
    path .defined es

/-- What a header `[path.key]` does to a document: the table is new, or so far
    only implied. -/
def openTable (path : List String) (key : String) (es : Entries) : Option Entries :=
  descend .implied
    (fun _ es =>
      match es.lookup key with
      | none => some (es ++ [(key, .table .defined [])])
      | some (.table .implied sub) => some (es.replace key (.table .defined sub))
      | some _ => none)
    path .defined es

/-- What a header `[[path.key]]` does to a document: a further table is added
    to the array. -/
def openRow (path : List String) (key : String) (es : Entries) : Option Entries :=
  descend .implied
    (fun _ es =>
      match es.lookup key with
      | none => some (es ++ [(key, .rows [[]])])
      | some (.rows tables) => some (es.replace key (.rows ([] :: tables)))
      | some _ => none)
    path .defined es

/-- What a line `key = value` does below the header `[header]`. -/
def insertBelow (header path : List String) (key : String) (v : Value) (es : Entries) :
    Option Entries :=
  descend .implied (fun _ es => es.insertKey path key v) header .defined es

end Entries

/-! ## Finished tables -/

mutual
/-- The value of a finished item. -/
def Item.toValue : Item → Value
  | .value v => v
  | .table _ entries => .table (fieldsOf entries)
  | .rows tables => .array (rowsOf tables).reverse

/-- The fields of a finished table. -/
def fieldsOf : List (String × Item) → List (String × Value)
  | [] => []
  | (key, item) :: rest => (key, item.toValue) :: fieldsOf rest

/-- The finished tables of an array. -/
def rowsOf : List (List (String × Item)) → List Value
  | [] => []
  | entries :: rest => .table (fieldsOf entries) :: rowsOf rest
end

end Toml

end LicenseExpr
