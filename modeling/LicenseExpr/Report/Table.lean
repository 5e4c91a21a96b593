/-
  Boxed tables.

  * a table has a header and rows of cells; a cell is split into lines, and
    all cells of a row are as high as the highest one;
  * a column is as wide as its widest line, with a blank on both sides, up to
    a greatest width, beyond which lines are broken;
  * the outer lines are drawn solid, the columns are separated by dashed
    lines, and so are the rows; a double line stands below the header;
  * text is aligned to the left or centred; of the spare blanks of a centred
    line the larger half goes to the left.
-/
import LicenseExpr.Text.Wrap

namespace LicenseExpr

namespace Table

/-- Where the lines of a cell stand. -/
inductive Align where
  | left
  | centre
  deriving DecidableEq

/-- A cell as the lines of its text. -/
structure Cell where
  lines : List String
  align : Align

/-- The lines of a text; a line end at the end is followed by an empty one. -/
def linesOf (text : String) : List String :=
  let step (c : Char) (acc : List (List Char)) : List (List Char) :=
    match acc with
    | line :: rest => if c = '\n' then [] :: line :: rest else (c :: line) :: rest
    | [] => [[c]]
  (text.toList.foldr step [[]]).map String.ofList

/-- A cell that is aligned to the left. -/
def Cell.left (text : String) : Cell := ⟨linesOf text, .left⟩

/-- A cell that is centred. -/
def Cell.centred (text : String) : Cell := ⟨linesOf text, .centre⟩

/-- The greatest width of a column. -/
def greatestWidth : Nat := 65535

/-- The width of the widest line, as far as a column can have it. -/
def Cell.width (c : Cell) : Nat :=
  min ((c.lines.map displayWidth).foldl max 0) greatestWidth

/-- A row of blanks. -/
def blanks (n : Nat) : String :=
  String.ofList (List.replicate n ' ')

/-- A line padded to a width. -/
def pad (align : Align) (width : Nat) (line : String) : String :=
  let spare := width - displayWidth line
  match align with
  | .left => line ++ blanks spare
  | .centre => blanks ((spare + 1) / 2) ++ line ++ blanks (spare / 2)

/-- The widths of the columns of several rows. -/
def widths (rows : List (List Cell)) : List Nat :=
  match rows with
  | [] => []
  | row :: rest =>
    rest.foldl (fun ws r => List.zipWith max ws (r.map Cell.width)) (row.map Cell.width)

/-- The width of a column with the blanks on both sides. -/
def outerWidth (width : Nat) : Nat :=
  min (width + 2) greatestWidth

/-- A horizontal line: its left end, the character that fills the columns, the
    crossing with a column line, and its right end. -/
def rule (left fill crossing right : String) (ws : List Nat) : String :=
  left ++
    crossing.intercalate (ws.map fun w => String.join (List.replicate (outerWidth w) fill)) ++
    right

/-- The lines of a cell in a column of a width. -/
def Cell.shown (c : Cell) (width : Nat) : List String :=
  (c.lines.flatMap (breakLine width)).map fun line => " " ++ pad c.align width line ++ " "

/-- Texts of one height side by side. -/
def sideBySide : List (List String) → List String
  | [] => []
  | [column] => column
  | column :: columns => List.zipWith (fun l r => l ++ "┆" ++ r) column (sideBySide columns)

/-- The lines of a row; below the end of a cell there are blanks. -/
def rowLines (ws : List Nat) (row : List Cell) : List String :=
  let texts := List.zipWith (fun w c => (w, Cell.shown c w)) ws row
  let height := (texts.map fun t => t.2.length).foldl max 0
  let columns := texts.map fun (w, ls) =>
    ls ++ List.replicate (height - ls.length) (blanks (outerWidth w))
  (sideBySide columns).map fun line => "│" ++ line ++ "│"

/-- The lines of a table. -/
def tableLines (header : List Cell) (rows : List (List Cell)) : List String :=
  let ws := widths (header :: rows)
  let between := rule "├" "╌" "┼" "┤" ws
  [rule "┌" "─" "┬" "┐" ws] ++ rowLines ws header ++ [rule "╞" "═" "╪" "╡" ws] ++
    List.intercalate [between] (rows.map (rowLines ws)) ++ [rule "└" "─" "┴" "┘" ws]

/-- A table as text, without a final line end. -/
def render (header : List Cell) (rows : List (List Cell)) : String :=
  "\n".intercalate (tableLines header rows)

end Table

end LicenseExpr
