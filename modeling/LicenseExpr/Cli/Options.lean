/-
  The options of the command line.

  Two options take a value, three are switches.  `Given` are the options that
  stand at one place of the command line; they may stand before and behind the
  subcommand, and what stands behind it prevails (`Given.overlay`).
-/
import LicenseExpr.Config

namespace LicenseExpr

namespace Cli

/-- An option that takes a value. -/
inductive Valued where
  | config
  | report
  deriving DecidableEq

/-- An option without a value. -/
inductive Switch where
  | verbose
  | logJson
  | quiet
  | help
  | version
  deriving DecidableEq

/-- The name of an option behind `--`. -/
def Valued.name : Valued → String
  | config => "config"
  | report => "report"

/-- The option with its value as usage texts show it. -/
def Valued.usage : Valued → String
  | config => "--config <CONFIG>"
  | report => "--report <FORMAT>"

/-- The name of a switch behind `--`. -/
def Switch.name : Switch → String
  | verbose => "verbose"
  | logJson => "log-json"
  | quiet => "quiet"
  | help => "help"
  | version => "version"

/-- The switch as usage texts show it; one that may be repeated has dots. -/
def Switch.usage : Switch → String
  | verbose => "--verbose..."
  | s => "--" ++ s.name

/-- The options at one place of the command line. -/
structure Given where
  config : Option String
  report : Option OutputFormat
  verbose : Nat
  logJson : Bool
  quiet : Bool
  deriving DecidableEq

namespace Given

def nothing : Given := ⟨none, none, 0, false, false⟩

/-- The options of two places, where those of the first prevail. -/
def overlay (inner outer : Given) : Given :=
  { config := inner.config <|> outer.config
    report := inner.report <|> outer.report
    verbose := if inner.verbose = 0 then outer.verbose else inner.verbose
    logJson := inner.logJson || outer.logJson
    quiet := inner.quiet || outer.quiet }

theorem overlay_nothing (g : Given) : g.overlay nothing = g := by
  cases g with
  | mk c r v l q => cases c <;> cases r <;> by_cases h : v = 0 <;> simp [overlay, nothing, h]

theorem nothing_overlay (g : Given) : nothing.overlay g = g := by
  simp [overlay, nothing]

end Given

/-- Why a command line is refused. -/
inductive UsageError where
  /-- An option that is not known; perhaps a value was meant, which can stand
      behind `--`. -/
  | unexpectedArgument (arg : String) (perhapsValue : Bool)
  | unrecognizedSubcommand (name : String)
  | invalidValue (option : Valued) (value : String)
  | missingValue (option : Valued)
  | repeatedValued (option : Valued)
  | repeatedSwitch (s : Switch)
  | unexpectedValue (s : Switch) (value : String)
  | missingExpressions
  | missingSubcommand
  deriving DecidableEq

end Cli

end LicenseExpr
