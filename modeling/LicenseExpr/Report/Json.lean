/-
  Reports in JSON.

  A report is an object with its fields in a fixed order, and `renderJson`
  writes a list of reports over several lines.
-/
import LicenseExpr.Json.Basic
import LicenseExpr.Report

namespace LicenseExpr

/-- A registry entry as a JSON value. -/
def Registry.Entry.toJson (e : Registry.Entry) : Json :=
  .object [("id", .string e.id), ("deprecated", .bool e.deprecated)]

/-- The status as a keyword. -/
def Status.keyword : Status → String
  | canonical => "canonical"
  | normalized => "normalized"
  | unparseable => "unparseable"

namespace Report

/-- A report as a JSON value. -/
def toJson (p : Report) : Json :=
  .object
    [("input", .string p.input),
     ("status", .string p.status.keyword),
     ("canonical", Json.ofString? p.canonical),
     ("licenses", .array (p.licenses.map Registry.Entry.toJson)),
     ("unknown", Json.ofStrings p.unknown),
     ("error", Json.ofString? p.error)]

/-- A list of reports as JSON text, without a final line end. -/
def renderJson (reports : List Report) : String :=
  (Json.array (reports.map toJson)).pretty

end Report

end LicenseExpr
