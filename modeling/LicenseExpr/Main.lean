/-
  The program: it looks at the files that can hold its configuration, runs,
  and writes what comes of it.
-/
import LicenseExpr.Cli.Run

namespace LicenseExpr

/-- What an open file holds. -/
def readAll (handle : IO.FS.Handle) : IO Config.Found := do
  match String.fromUTF8? (← handle.readBinToEnd) with
  | some text => return .file text
  | none => return .unreadable

/-- What an error in opening a file says about its path. -/
def foundOfError : IO.Error → Config.Found
  | .noFileOrDirectory .. => .missing
  | .inappropriateType .. => .missing
  | _ => .unreadable

/-- What is found at a path of the file system. -/
def lookAt (path : String) : IO Config.Found := do
  match ← (IO.FS.Handle.mk path .read).toBaseIO with
  | .error e => return foundOfError e
  | .ok handle =>
    match ← (readAll handle).toBaseIO with
    | .error _ => return .unreadable
    | .ok found => return found

/-- The paths that a command line makes the program look at. -/
def pathsFor (args : List String) (directory : String) (home : Option String) : List String :=
  match Cli.parseArguments args with
  | .ok inv =>
    match inv.options.config with
    | some path => [path]
    | none => Config.places directory home
  | .error _ => []

/-- What the program can see, as far as a command line makes it look. -/
def surroundings (args : List String) : IO Cli.Surroundings := do
  let directory := (← IO.currentDir).toString
  let home := (← IO.getEnv "HOME").filter (!·.isEmpty)
  let found ← (pathsFor args directory home).mapM fun path => return (path, ← lookAt path)
  return ⟨directory, home, fun path => (found.lookup path).getD .missing⟩

end LicenseExpr

def main (args : List String) : IO UInt32 := do
  let outcome := LicenseExpr.Cli.run args (← LicenseExpr.surroundings args)
  for line in outcome.notices do
    (← IO.getStderr).putStrLn line
  (← IO.getStdout).putStr outcome.output
  return outcome.exitCode.toUInt32
