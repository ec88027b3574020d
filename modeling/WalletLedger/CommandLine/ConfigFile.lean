import WalletLedger.CommandLine.Run

/-!
# Configuration files

The command line may name a configuration file. It may not be there to be opened, what stands in it
may be no settings, or it gives further options (`ConfigFile`). `start` runs what is given on the
command line, together with what such a file gives. The command line wins, and a file that cannot be
used is refused before anything else is looked at.
-/

namespace WalletLedger.CommandLine

/-- What is found at the path of a configuration file. -/
inductive ConfigFile where
  | unopened
  | malformed (reason : String)
  | settings (inFile : Given)
  deriving DecidableEq

namespace Given

/-- What is given altogether: on the command line, and then in the file that it names. -/
def loaded (given : Given) (file : ConfigFile) : Given :=
  match given.config with
  | none => given
  | some _ =>
    match file with
    | .settings inFile => given.or inFile
    | _ => given

/-- What is wrong with the file that is named on the command line. -/
def configFault? (given : Given) (file : ConfigFile) : Option ConfigFault :=
  match given.config with
  | none => none
  | some path =>
    match file with
    | .unopened => some (.unopened path)
    | .malformed reason => some (.malformed path reason)
    | .settings _ => none

/-- The command to be run. There is none to be run for somebody who asks for help. -/
def commandName (given : Given) : String := if given.help then "" else given.command.getD ""

end Given

/-- Runs what is given on the command line, when this is found at the path of the configuration
file. -/
def start (given : Given) (file : ConfigFile) : Except Breach Outcome :=
  let all := given.loaded file
  run all.commandName { all.options with configFault := given.configFault? file }

end WalletLedger.CommandLine
