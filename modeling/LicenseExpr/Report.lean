/-
  Reports on expressions.

  * `Report.build` reads a text and describes it against a registry: its
    status, its canonical form, the known licenses that it refers to, and the
    ids that the registry does not know;
  * known licenses and unknown ids come in the order of the ids in the
    expression, ascending as they are written; of several spellings of one
    license the first one counts;
  * a text that is no expression has an error and nothing else.
-/
import LicenseExpr.Expr.Printer
import LicenseExpr.Parser
import LicenseExpr.Registry

namespace LicenseExpr

/-- What became of a text. -/
inductive Status where
  /-- The text is its own canonical form. -/
  | canonical
  /-- The text has another canonical form. -/
  | normalized
  /-- The text is no expression. -/
  | unparseable
  deriving DecidableEq

/-- The status in words. -/
def Status.text : Status → String
  | canonical => "canonical"
  | normalized => "normalized"
  | unparseable => "license unparseable"

/-- A report on one text. -/
structure Report where
  input : String
  status : Status
  /-- The canonical form of a text that is an expression. -/
  canonical : Option String
  /-- The known licenses that the expression refers to. -/
  licenses : List Registry.Entry
  /-- The ids that it refers to and that are not known. -/
  unknown : List String
  /-- Why the text is no expression. -/
  error : Option String
  deriving DecidableEq

namespace Report

/-- Keeps the first of several entries with the same spelling. -/
def firstOfEach (entries : List Registry.Entry) : List Registry.Entry :=
  entries.foldl
    (fun kept e => if kept.any (fun k => k.id == e.id) then kept else kept ++ [e]) []

/-- The report on a text that is no expression. -/
def ofError (input : String) (e : SyntaxError) : Report :=
  ⟨input, .unparseable, none, [], [], some e.message⟩

/-- The report on a text that denotes an expression. -/
def ofExpr (input : String) (e : Expr) (r : Registry) : Report :=
  let written := e.print
  { input := input
    status := if written = input then .canonical else .normalized
    canonical := some written
    licenses := firstOfEach (e.licenseIds.filterMap r.license?)
    unknown := e.licenseIds.filter fun id => !r.knowsLicense id
    error := none }

/-- Describes a text against a registry. -/
def build (input : String) (r : Registry) : Report :=
  match parse input with
  | .ok e => ofExpr input e r
  | .error e => ofError input e

/-- Whether the text is an expression. -/
def isParseable (p : Report) : Bool :=
  p.status != .unparseable

end Report

end LicenseExpr
