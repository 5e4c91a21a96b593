/-
  Reports for a reader at a terminal.

  `renderTerminal` shows a title, a table with a row for each report, and a
  line of totals.  In quiet mode only the texts that are no expressions are in
  the table, the title is left out, and so is the table if it would be empty.
  The middle column shows the canonical form or the licenses, or the error.
-/
import LicenseExpr.Report
import LicenseExpr.Report.Table

namespace LicenseExpr

/-- The name that the program gives itself. -/
def programName : String := "spdx-expr"

def programVersion : String := "0.1.0"

/-- What the middle column shows. -/
inductive View where
  | canonical
  | licenses
  deriving DecidableEq

/-- The heading of the middle column. -/
def View.heading : View → String
  | canonical => "Canonical"
  | licenses => "Licenses"

namespace Report

/-- The licenses of a report, one a line, with a mark on those that are
    deprecated; the unknown ids are on a last line. -/
def licenseLines (p : Report) : List String :=
  p.licenses.map (fun e => if e.deprecated then e.id ++ " (deprecated)" else e.id) ++
    (if p.unknown.isEmpty then [] else ["unknown: " ++ ", ".intercalate p.unknown])

/-- The text of the middle column. -/
def detail (view : View) (p : Report) : String :=
  match p.error, view with
  | some message, _ => message
  | none, .canonical => p.canonical.getD ""
  | none, .licenses => "\n".intercalate p.licenseLines

/-- The status with its sign. -/
def statusMark (p : Report) : String :=
  match p.status with
  | .canonical => "✓ canonical"
  | .normalized => "⚠ normalized"
  | .unparseable => "✗ unparseable"

/-- The row of a report. -/
def row (view : View) (p : Report) : List Table.Cell :=
  [.left p.input, .left (p.detail view), .centred p.statusMark]

/-- The table of several reports. -/
def table (view : View) (reports : List Report) : String :=
  Table.render [.left "Expression", .left view.heading, .left "Status"]
    (reports.map (row view))

/-- The line of totals. -/
def totals (reports : List Report) : String :=
  "Total: " ++ toString reports.length ++
    "  Normalized: " ++ toString (reports.countP fun p => p.status = .normalized) ++
    "  Unparseable: " ++ toString (reports.countP fun p => !p.isParseable) ++ "\n"

/-- The reports as they are shown. -/
def renderTerminal (reports : List Report) (view : View) (quiet : Bool) : String :=
  let refused := reports.filter fun p => !p.isParseable
  let body :=
    if !quiet then
      "\n " ++ programName ++ " v" ++ programVersion ++ "\n\n" ++ table view reports ++ "\n"
    else if refused.isEmpty then ""
    else table view refused ++ "\n"
  body ++ totals reports

end Report

end LicenseExpr
