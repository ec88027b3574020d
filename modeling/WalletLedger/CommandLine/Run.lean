import WalletLedger.CommandLine.Reply
import WalletLedger.CommandLine.Usage

/-!
# Running a command

`run` takes the name of a command and the options and answers all that the program does with them:
the exit status, what it prints to either stream, the level it logs at and the lines it logs. What
was wrong with a configuration file comes first and the display settings after it; the command comes
last. An empty name asks for the overview of the commands.
-/

namespace WalletLedger.CommandLine

/-- What a run comes to: its exit status, what is printed as a result and as a mistake, the log
level once it is set, and the lines that are logged. -/
structure Outcome where
  status : UInt32
  stdout : String
  stderr : String
  logLevel : Option LogLevel
  log : List LogLine
  deriving DecidableEq

namespace Outcome

/-- The outcome of a command line that is refused before the log level is set. -/
def refused (r : Refusal) : Outcome := ⟨1, "", r.line, none, []⟩

/-- The outcome of a reply under the display settings. -/
def ofReply (settings : DisplaySettings) (reply : Reply) : Outcome where
  status := if reply.refusal = none then 0 else 1
  stdout := reply.printed
  stderr := (reply.refusal.map Refusal.line).getD ""
  logLevel := some settings.logLevel
  log := [⟨.debug, "network " ++ Enumeration.name settings.network⟩]

end Outcome

/-- The refusal of a run whose configuration file cannot be used. -/
def ConfigFault.refusal (fault : ConfigFault) : Refusal := .invalidOption fault.message

/-- What a command of some name replies. -/
def replyTo (command : String) (settings : DisplaySettings) (o : Options) : Except Breach Reply :=
  match Command.table.value? command with
  | some known => known.reply settings o
  | none => .ok (.refused (.unknownCommand command))

/-- Runs a command. -/
def run (command : String) (o : Options) : Except Breach Outcome :=
  match o.configFault with
  | some fault => .ok (.refused fault.refusal)
  | none =>
    if command = "" then .ok ⟨0, usage, "", none, []⟩
    else
      match DisplaySettings.ofOptions o.display.filled with
      | .error e => .ok (.refused (.settings e))
      | .ok settings => (replyTo command settings o).map (Outcome.ofReply settings)

end WalletLedger.CommandLine
