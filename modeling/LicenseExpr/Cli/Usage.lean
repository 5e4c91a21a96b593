/-
  Usage texts: what the program says about its command line.

  What an error says of an argument is shown without the control sequences in
  it, so that an argument cannot act on the terminal.
-/
import LicenseExpr.Cli.Options
import LicenseExpr.Report.Terminal
import LicenseExpr.Text.ControlSequence

namespace LicenseExpr

/-- The subcommand that shows a view. -/
def View.command : View → String
  | canonical => "normalize"
  | licenses => "licenses"

/-- What a subcommand does. -/
def View.about : View → String
  | canonical => "Print the canonical form of each expression"
  | licenses => "List the known SPDX licenses referenced by each expression"

/-- The view of a subcommand. -/
def View.ofCommand? (s : String) : Option View :=
  if s = "normalize" then some .canonical
  else if s = "licenses" then some .licenses
  else none

namespace Cli

/-- An argument as an error shows it. -/
def quoted (arg : String) : String :=
  "'" ++ withoutControls arg ++ "'"

/-- What is wrong. -/
def UsageError.message : UsageError → String
  | unexpectedArgument arg _ => "unexpected argument " ++ quoted arg ++ " found"
  | unrecognizedSubcommand name => "unrecognized subcommand " ++ quoted name
  | invalidValue option value =>
    "invalid value " ++ quoted value ++ " for '" ++ option.usage ++ "'"
  | missingValue option =>
    "a value is required for '" ++ option.usage ++ "' but none was supplied"
  | repeatedValued option =>
    "the argument '" ++ option.usage ++ "' cannot be used multiple times"
  | repeatedSwitch s => "the argument '" ++ s.usage ++ "' cannot be used multiple times"
  | unexpectedValue s value =>
    "unexpected value " ++ quoted value ++ " for '" ++ s.usage ++
      "' found; no more were expected"
  | missingExpressions => "the following required arguments were not provided:"
  | missingSubcommand =>
    "'" ++ programName ++ "' requires a subcommand but one was not provided"

/-- How an argument can be passed that was perhaps meant as a value. -/
def UsageError.tip? : UsageError → Option String
  | unexpectedArgument arg true =>
    some ("to pass " ++ quoted arg ++ " as a value, use " ++ quoted ("-- " ++ arg))
  | _ => none

/-- The error as it is shown. -/
def UsageError.text (e : UsageError) : String :=
  "error: " ++ e.message ++
    match e.tip? with
    | some tip => "\n\n  tip: " ++ tip
    | none => ""

/-- What help is asked about. -/
inductive Topic where
  | program
  | subcommand (view : View)
  /-- Help itself. -/
  | help
  deriving DecidableEq

def helpAbout : String :=
  "Print this message or the help of the given subcommand(s)"

/-- The lines on the options that stand everywhere. -/
def optionLines : List String :=
  ["      --config <CONFIG>  Config file [default: ./.spdx-expr/config.toml, " ++
     "fallback ~/.config/spdx-expr/config.toml]",
   "      --report <FORMAT>  Report format (overrides `output.format` from the config) " ++
     "[possible values: terminal, json]",
   "  -v, --verbose...       Increase log verbosity (-v debug, -vv trace)",
   "      --log-json         Emit logs as JSON lines on stderr",
   "  -q, --quiet            Only print unparseable expressions and the summary line",
   "  -h, --help             Print help"]

/-- The lines of a help text. -/
def Topic.lines : Topic → List String
  | program =>
    ["Parse, normalize and inspect SPDX license expressions",
     "",
     "Usage: " ++ programName ++ " [OPTIONS] <COMMAND>",
     "",
     "Commands:",
     "  normalize  " ++ View.canonical.about,
     "  licenses   " ++ View.licenses.about,
     "  help       " ++ helpAbout,
     "",
     "Options:"] ++ optionLines ++ ["  -V, --version          Print version"]
  | subcommand view =>
    [view.about,
     "",
     "Usage: " ++ programName ++ " " ++ view.command ++ " [OPTIONS] <EXPR>...",
     "",
     "Arguments:",
     "  <EXPR>...  ",
     "",
     "Options:"] ++ optionLines
  | help =>
    [helpAbout,
     "",
     "Usage: " ++ programName ++ " help [COMMAND]...",
     "",
     "Arguments:",
     "  [COMMAND]...  Print help for the subcommand(s)"]

/-- A help text. -/
def Topic.text (t : Topic) : String :=
  String.join (t.lines.map (· ++ "\n"))

/-- What the program says about its version. -/
def versionText : String :=
  programName ++ " " ++ programVersion ++ "\n"

end Cli

end LicenseExpr
