/-
  What the program does with its command line.

  `run` is a function of the arguments and of what the surroundings show: the
  directory, the user's directory, and what is found at a path.  Its outcome
  is all that can be observed: the exit code, the standard output, and what is
  said on standard error.
-/
import LicenseExpr.Cli.Arguments
import LicenseExpr.Log
import LicenseExpr.Report.Json

namespace LicenseExpr

namespace Cli

/-- What the program can see. -/
structure Surroundings where
  directory : String
  home : Option String
  look : String → Config.Found

/-- What can be observed of a run. -/
structure Outcome where
  exitCode : Nat
  output : String
  /-- What is said on standard error, each with a line end behind it. -/
  notices : List String
  deriving DecidableEq

/-- The line of a log record. -/
def logLine (json : Bool) (r : Log.Record) : String :=
  if json then r.toJson.compact else r.text

/-- The log records that are shown: warnings, and the others on demand. -/
def shown (verbose : Nat) (records : List Log.Record) : List Log.Record :=
  records.filter fun r => r.level = .warn || 0 < verbose

/-- The records of loading the configuration and of reading expressions. -/
def records (loaded : Config.Loaded) (registry : Registry) (expressions : List String) :
    List Log.Record :=
  (loaded.source.map Log.loadedConfig).toList ++
    [Log.registryReady registry.version registry.licenseCount registry.exceptionCount] ++
    expressions.flatMap fun s => (read s).events.map Event.record

/-- Reports on the expressions of a command line. -/
def report (inv : Invocation) (loaded : Config.Loaded) : Outcome :=
  let registry := loaded.config.registry
  let reports := inv.expressions.map fun s => Report.build s registry
  let format := inv.options.report.getD loaded.config.format
  { exitCode := if reports.all Report.isParseable then 0 else 1
    output :=
      match format with
      | .terminal => Report.renderTerminal reports inv.view inv.options.quiet
      | .json => Report.renderJson reports ++ "\n"
    notices :=
      (shown inv.options.verbose (records loaded registry inv.expressions)).map
        (logLine inv.options.logJson) }

/-- What comes of a command line that is not followed. -/
def Stop.outcome : Stop → Outcome
  | help topic => ⟨0, topic.text, []⟩
  | version => ⟨0, versionText, []⟩
  | refuse e => ⟨2, "", [e.text]⟩
  | nothingAsked => ⟨2, "", []⟩

/-- Runs the program. -/
def run (args : List String) (s : Surroundings) : Outcome :=
  match parseArguments args with
  | .error stop => stop.outcome
  | .ok inv =>
    match Config.load s.look s.directory s.home inv.options.config with
    | .error e => ⟨1, "", ["Error: " ++ e.message]⟩
    | .ok loaded => report inv loaded

end Cli

end LicenseExpr
