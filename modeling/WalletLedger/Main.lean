import WalletLedger.CommandLine.Arguments

/-!
# The program

The program reads its command line and the configuration file that it names, runs the command and
prints what comes of it.
-/

namespace WalletLedger.CommandLine

/-- What is found at the path of a configuration file, next to a command line that gives options of
these names. -/
def readConfigFile (names : List String) (path : String) : IO ConfigFile := do
  try return .ofContent names (← IO.FS.readFile path)
  catch _ => return .unopened

/-- Prints the outcome of a run: the log lines that the level shows, then both streams. -/
def printOutcome (o : Outcome) : IO UInt32 := do
  let errors ← IO.getStderr
  for line in o.log do
    if (o.logLevel.map fun level => level.shows line.level).getD false then
      errors.putStrLn line.text
  (← IO.getStdout).putStr o.stdout
  errors.putStr o.stderr
  return o.status

/-- Runs what these settings give on the command line. -/
def runSettings (settings : List Setting) : IO UInt32 := do
  match Given.ofSettings "--" settings with
  | .error message => printOutcome (.refused (.invalidOption message))
  | .ok given =>
    let file ← match given.config with
      | none => pure .unopened
      | some path => readConfigFile (settings.map Setting.name) path
    match start given file with
    | .ok outcome => printOutcome outcome
    | .error breach =>
      (← IO.getStderr).putStrLn breach.message
      return 1

end WalletLedger.CommandLine

/-- Runs the program on the words of its command line. -/
def main (words : List String) : IO UInt32 :=
  match WalletLedger.CommandLine.Setting.ofWords words with
  | .ok settings => WalletLedger.CommandLine.runSettings settings
  | .error message => WalletLedger.CommandLine.printOutcome (.refused (.invalidOption message))
