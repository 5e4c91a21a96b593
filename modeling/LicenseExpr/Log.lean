/-
  Log records and how they are written.

  * a `Record` has a level, the part of the program that it comes from, a
    message, and named values;
  * `Event.record` is the record of an event of reading an expression;
  * `text` writes a record in one line of text, `toJson` as a JSON object.
-/
import LicenseExpr.Json.Basic
import LicenseExpr.Legacy

namespace LicenseExpr

namespace Log

inductive Level where
  | warn
  | debug
  deriving DecidableEq

def Level.name : Level → String
  | warn => "WARN"
  | debug => "DEBUG"

/-- A named value of a record. -/
inductive Field where
  | string (s : String)
  /-- A path, which is written without quotes. -/
  | path (s : String)
  | flag (b : Bool)
  | number (n : Nat)
  deriving DecidableEq

/-- A log record. -/
structure Record where
  level : Level
  /-- The part of the program that the record comes from. -/
  target : String
  message : String
  fields : List (String × Field)
  deriving DecidableEq

/-- A value in a line of text. -/
def Field.text : Field → String
  | string s => Json.quote s
  | path s => s
  | flag b => if b then "true" else "false"
  | number n => toString n

/-- A value in JSON. -/
def Field.toJson : Field → Json
  | string s => .string s
  | path s => .string s
  | flag b => .bool b
  | number n => .ofNat n

/-- A record in one line of text. -/
def Record.text (r : Record) : String :=
  r.level.name ++ " " ++ r.message ++
    String.join (r.fields.map fun f => " " ++ f.1 ++ "=" ++ f.2.text)

/-- The named values of a record in JSON, after its message. -/
def Record.fieldsJson (r : Record) : Json :=
  .object (("message", .string r.message) :: r.fields.map fun f => (f.1, f.2.toJson))

/-- A record as a JSON object. -/
def Record.toJson (r : Record) : Json :=
  .object
    [("level", .string r.level.name), ("fields", r.fieldsJson), ("target", .string r.target)]

/-- The record of a configuration that was read from a file. -/
def loadedConfig (source : String) : Record :=
  ⟨.debug, "spdx_expr::config", "loaded config", [("path", .path source)]⟩

/-- The record of a registry that is ready for use. -/
def registryReady (version : String) (licenses exceptions : Nat) : Record :=
  ⟨.debug, "spdx_expr", "registry ready",
    [("version", .string version), ("licenses", .number licenses),
     ("exceptions", .number exceptions)]⟩

end Log

/-- The record of an event. -/
def Event.record : Event → Log.Record
  | rewroteLicense legacy plus successor =>
    ⟨.debug, "spdx_expr::spdx::deprecated", "rewrote deprecated license id",
      [("deprecated", .string legacy), ("plus", .flag plus), ("canonical", .string successor)]⟩
  | expandedCombined legacy license exception =>
    ⟨.debug, "spdx_expr::spdx::deprecated", "expanded combined license token",
      [("deprecated", .string legacy), ("license", .string license),
       ("exception", .string exception)]⟩
  | rewroteException legacy successor =>
    ⟨.debug, "spdx_expr::spdx::deprecated", "rewrote deprecated exception id",
      [("deprecated", .string legacy), ("canonical", .string successor)]⟩
  | ignoredClosings offset count =>
    ⟨.warn, "spdx_expr::spdx::parser", "ignoring surplus closing parentheses",
      [("offset", .number offset), ("count", .number count)]⟩

end LicenseExpr
