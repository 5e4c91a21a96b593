/-
  The configuration.

  * a configuration holds the report format and further license and exception
    ids; `Config.registry` is the published registry extended with them;
  * `ofToml?` decodes a TOML document.  Unknown keys are ignored and missing
    ones have defaults.  A record may be a table, or an array with its fields
    by position; a date-time is a record without any known field;
  * `load` looks for the configuration: in the file that is asked for, else in
    the one of the project, else in the one of the user, else it is the
    default.
-/
import LicenseExpr.Registry
import LicenseExpr.Toml.Document

namespace LicenseExpr

/-- How reports are written. -/
inductive OutputFormat where
  | terminal
  | json
  deriving DecidableEq

namespace OutputFormat

def name : OutputFormat → String
  | terminal => "terminal"
  | json => "json"

/-- The format of a name. -/
def ofName? (s : String) : Option OutputFormat :=
  if s = "terminal" then some terminal
  else if s = "json" then some json
  else none

theorem ofName?_name (f : OutputFormat) : ofName? f.name = some f := by
  cases f <;> decide

end OutputFormat

/-- A configuration. -/
structure Config where
  /-- Further license ids. -/
  licenses : List String
  /-- Further exception ids. -/
  exceptions : List String
  /-- The report format where the command line names none. -/
  format : OutputFormat
  deriving DecidableEq

namespace Config

/-- The configuration without any file. -/
def standard : Config := ⟨[], [], .terminal⟩

/-- The published registry with the further ids. -/
def registry (c : Config) : Registry :=
  Registry.published.extend c.licenses c.exceptions

/-! ## Decoding -/

/-- The fields of a record: by key from a table, by position from an array. -/
def record? (keys : List String) (v : Toml.Value) : Option (String → Option Toml.Value) :=
  match v with
  | .table fields => some fun key => fields.lookup key
  | .array items => some fun key => (keys.zip items).lookup key
  | .dateTime _ => some fun _ => none
  | _ => none

/-- The text of a string value. -/
def text? : Toml.Value → Option String
  | .string s => some s
  | _ => none

/-- The texts of an array of strings. -/
def texts? : Toml.Value → Option (List String)
  | .array items => items.mapM text?
  | _ => none

/-- Whether a value is an empty table or array. -/
def isEmptyValue : Toml.Value → Bool
  | .table [] => true
  | .array [] => true
  | _ => false

/-- The format of a value: its name, or a table that has the name as its only
    key and holds nothing. -/
def format? : Toml.Value → Option OutputFormat
  | .string s => OutputFormat.ofName? s
  | .table [(name, v)] => if isEmptyValue v then OutputFormat.ofName? name else none
  | _ => none

/-- A field with a default. -/
def fieldOr {α : Type} (fields : String → Option Toml.Value) (key : String) (default : α)
    (decode : Toml.Value → Option α) : Option α :=
  match fields key with
  | some v => decode v
  | none => some default

/-- The further ids of a value. -/
def ids? (v : Toml.Value) : Option (List String × List String) := do
  let fields ← record? ["licenses", "exceptions"] v
  return (← fieldOr fields "licenses" [] texts?, ← fieldOr fields "exceptions" [] texts?)

/-- The format of a value that holds the settings of the output. -/
def output? (v : Toml.Value) : Option OutputFormat := do
  fieldOr (← record? ["format"] v) "format" .terminal format?

/-- The configuration of a document. -/
def ofToml? (v : Toml.Value) : Option Config := do
  let fields ← record? ["registry", "output"] v
  let (licenses, exceptions) ← fieldOr fields "registry" ([], []) ids?
  return ⟨licenses, exceptions, ← fieldOr fields "output" .terminal output?⟩

/-! ## Loading -/

/-- What is found at a path. -/
inductive Found where
  /-- There is nothing. -/
  | missing
  /-- There is something that cannot be read as text. -/
  | unreadable
  | file (text : String)

/-- Why there is no configuration. -/
inductive Error where
  | unreadable (path : String)
  | malformed (path : String)
  deriving DecidableEq

/-- The error in one line. -/
def Error.message : Error → String
  | unreadable path => "failed to read config " ++ path
  | malformed path => "failed to parse config " ++ path

/-- A configuration and the file that it comes from. -/
structure Loaded where
  config : Config
  source : Option String

/-- A path below a directory. -/
def joinPath (directory path : String) : String :=
  if directory.endsWith "/" then directory ++ path else directory ++ "/" ++ path

/-- The configuration in what was found at a path. -/
def ofFound (path : String) : Found → Except Error Loaded
  | .file text =>
    match (Toml.parse text).bind ofToml? with
    | some c => .ok ⟨c, some path⟩
    | none => .error (.malformed path)
  | _ => .error (.unreadable path)

/-- The first of several paths where anything is found decides; without one
    the configuration is the standard one. -/
def firstOf (look : String → Found) : List String → Except Error Loaded
  | [] => .ok ⟨standard, none⟩
  | path :: rest =>
    match look path with
    | .missing => firstOf look rest
    | found => ofFound path found

/-- The paths where a configuration is looked for, unless one is asked for. -/
def places (project : String) (home : Option String) : List String :=
  joinPath project ".spdx-expr/config.toml" ::
    (home.map (joinPath · ".config/spdx-expr/config.toml")).toList

/-- Loads the configuration.  A file that is asked for has to exist; the files
    of the project and of the user need not. -/
def load (look : String → Found) (project : String) (home requested : Option String) :
    Except Error Loaded :=
  match requested with
  | some path => ofFound path (look path)
  | none => firstOf look (places project home)

end Config

end LicenseExpr
