/-
  Reading the command line.

  * the arguments up to the subcommand and those behind it are read by the
    same walk (`walk`), which collects the options (`Given`) and, behind the
    subcommand, the expressions;
  * an option may be followed by its value as the next argument; the value is
    looked at when the next option comes or at the end (`settle`), so an
    earlier fault elsewhere is reported first;
  * `parseArguments` is the whole; it answers what to do, or why the command
    line is refused.
-/
import LicenseExpr.Cli.Usage
import LicenseExpr.Text.Similarity

namespace LicenseExpr

namespace Cli

/-- What a command line asks for. -/
structure Invocation where
  options : Given
  view : View
  expressions : List String
  deriving DecidableEq

/-- Why reading the command line ends early. -/
inductive Stop where
  | help (topic : Topic)
  | version
  | refuse (e : UsageError)
  /-- There are no arguments at all. -/
  | nothingAsked
  deriving DecidableEq

/-- An option whose value has not been looked at yet. -/
inductive Pending where
  | none
  /-- The value is still to come. -/
  | awaiting (option : Valued)
  | holding (option : Valued) (value : String)
  deriving DecidableEq

/-- How far the walk over the arguments has got. -/
structure Walk where
  given : Given
  pending : Pending
  /-- The expressions so far, the last one first. -/
  values : List String
  /-- Whether `--` has been seen, behind which there are no options. -/
  onlyValues : Bool

def Walk.start : Walk := ⟨.nothing, .none, [], false⟩

/-- Sets an option that takes a value. -/
def setValue (option : Valued) (value : String) (g : Given) : Except UsageError Given :=
  match option with
  | .config =>
    if g.config.isSome then .error (.repeatedValued option)
    else if value.isEmpty then .error (.missingValue option)
    else .ok { g with config := some value }
  | .report =>
    if g.report.isSome then .error (.repeatedValued option)
    else
      match OutputFormat.ofName? value with
      | some f => .ok { g with report := some f }
      | none =>
        .error (if value.isEmpty then .missingValue option else .invalidValue option value)

/-- Looks at the pending option. -/
def settle (w : Walk) : Except Stop Walk :=
  match w.pending with
  | .none => .ok w
  | .awaiting option => .error (.refuse (.missingValue option))
  | .holding option value =>
    match setValue option value w.given with
    | .ok g => .ok { w with given := g, pending := .none }
    | .error e => .error (.refuse e)

/-- Turns a switch on. -/
def turnOn (topic : Topic) (s : Switch) (w : Walk) : Except Stop Walk := do
  let w ← settle w
  match s with
  | .verbose => return { w with given := { w.given with verbose := w.given.verbose + 1 } }
  | .logJson =>
    if w.given.logJson then throw (.refuse (.repeatedSwitch s))
    else return { w with given := { w.given with logJson := true } }
  | .quiet =>
    if w.given.quiet then throw (.refuse (.repeatedSwitch s))
    else return { w with given := { w.given with quiet := true } }
  | .help => throw (.help topic)
  | .version => throw .version

/-- The switches that are known; only the program itself has a version. -/
def switches : Topic → List Switch
  | .program => [.verbose, .logJson, .quiet, .help, .version]
  | _ => [.verbose, .logJson, .quiet, .help]

/-- The switch of a name. -/
def switch? (topic : Topic) (name : String) : Option Switch :=
  (switches topic).find? fun s => s.name == name

/-- The switch of a letter. -/
def letter? (topic : Topic) (c : Char) : Option Switch :=
  if c = 'v' then some .verbose
  else if c = 'q' then some .quiet
  else if c = 'h' then some .help
  else if c = 'V' ∧ topic = .program then some .version
  else none

/-- The option of a name that takes a value. -/
def valued? (name : String) : Option Valued :=
  [Valued.config, Valued.report].find? fun v => v.name == name

/-- The names that options have behind `--`. -/
def longNames (topic : Topic) : List String :=
  [Valued.config, Valued.report].map Valued.name ++ (switches topic).map Switch.name

/-- Splits an argument behind `--` at its first equals sign. -/
def splitValue (cs : List Char) : String × Option String :=
  let name := String.ofList (cs.takeWhile (· != '='))
  match cs.dropWhile (· != '=') with
  | [] => (name, none)
  | _ :: value => (name, some (String.ofList value))

/-- An option with a long name. -/
def longOption (topic : Topic) (cs : List Char) (w : Walk) : Except Stop Walk :=
  let (name, value) := splitValue cs
  match valued? name, switch? topic name, value with
  | some option, _, none => do
    let w ← settle w
    return { w with pending := .awaiting option }
  | some option, _, some value => do
    let w ← settle w
    match setValue option value w.given with
    | .ok g => return { w with given := g }
    | .error e => throw (.refuse e)
  | none, some s, none => turnOn topic s w
  | none, some s, some value => .error (.refuse (.unexpectedValue s value))
  | none, none, _ =>
    let meant := (longNames topic).any (isSimilar name)
    .error (.refuse (.unexpectedArgument ("--" ++ name) (topic ≠ .program && !meant)))

/-- A group of letters behind a single `-`. -/
def letters (topic : Topic) : List Char → Walk → Except Stop Walk
  | [], w => .ok w
  | c :: rest, w =>
    match letter? topic c with
    | some s => do letters topic rest (← turnOn topic s w)
    | none => .error (.refuse (.unexpectedArgument (String.ofList ['-', c]) (topic ≠ .program)))

/-- An argument that is no option. -/
def plainArgument (topic : Topic) (arg : String) (w : Walk) : Except Stop Walk :=
  match w.pending, w.onlyValues, topic with
  | .awaiting option, false, _ => .ok { w with pending := .holding option arg }
  | _, onlyValues, .program =>
    .error (.refuse
      (if onlyValues ∧ ((View.ofCommand? arg).isSome ∨ arg = "help") then
         .unexpectedArgument arg false
       else .unrecognizedSubcommand arg))
  | _, _, _ => do
    let w ← settle w
    return { w with values := arg :: w.values }

/-- The topic that a list of names asks for help about. -/
def helpTopic : List String → Except Stop Topic
  | [] => .ok .program
  | name :: rest =>
    let topic? := if name = "help" then some Topic.help else (View.ofCommand? name).map .subcommand
    match topic?, rest with
    | none, _ => .error (.refuse (.unrecognizedSubcommand name))
    | some topic, [] => .ok topic
    | some _, next :: _ => .error (.refuse (.unrecognizedSubcommand next))

/-- An argument, which is no subcommand. -/
def argument (topic : Topic) (arg : String) (w : Walk) : Except Stop Walk :=
  if w.onlyValues then plainArgument topic arg w
  else
    match arg.toList with
    | ['-', '-'] => .ok { w with onlyValues := true }
    | '-' :: '-' :: name => longOption topic name w
    | '-' :: c :: rest => letters topic (c :: rest) w
    | _ => plainArgument topic arg w

/-- Whether the next argument can be a subcommand. -/
def Walk.takesCommand (w : Walk) : Bool :=
  !w.onlyValues &&
    match w.pending with
    | .awaiting _ => false
    | _ => true

/-- Walks over the arguments; `topic` says whether the subcommand is still to
    come.  With the subcommand the walk ends and leaves the rest. -/
def walk (topic : Topic) : List String → Walk → Except Stop (Walk × Option (View × List String))
  | [], w => .ok (w, none)
  | arg :: rest, w =>
    if topic = .program ∧ w.takesCommand = true then
      match View.ofCommand? arg with
      | some view => .ok (w, some (view, rest))
      | none =>
        if arg = "help" then do throw (.help (← helpTopic rest))
        else do walk topic rest (← argument topic arg w)
    else do walk topic rest (← argument topic arg w)

/-- What a command line asks for. -/
def parseArguments (args : List String) : Except Stop Invocation := do
  let (outer, found) ← walk .program args .start
  match found with
  | some (view, rest) =>
    let (inner, _) ← walk (.subcommand view) rest .start
    let inner ← settle inner
    if inner.values.isEmpty then throw (.refuse .missingExpressions)
    let outer ← settle outer
    return ⟨inner.given.overlay outer.given, view, inner.values.reverse⟩
  | none =>
    let outer ← settle outer
    if outer.given = .nothing then throw .nothingAsked
    else throw (.refuse .missingSubcommand)

end Cli

end LicenseExpr
