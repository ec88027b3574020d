import WalletLedger.Record
import WalletLedger.Settings

/-!
# Refusals

A command line that cannot be carried out is answered by a single line that names what is wrong with
it and, where that helps, the offending name.
-/

namespace WalletLedger.CommandLine

/-- Why a command was not carried out: an option is wrong in itself or missing, a kind or a command
is unknown, or there is an error in the settings, an amount, the record that the options describe or
the name of a flow or status. -/
inductive Refusal where
  | invalidOption (detail : String)
  | missingOption (name : String)
  | unknownKind (name : String)
  | unknownCommand (name : String)
  | settings (error : SettingsError)
  | amount (error : AmountError)
  | record (error : RecordError)
  | unknownName (error : RecordError) (name : String)
  deriving DecidableEq

namespace Refusal

/-- What is wrong, in a word. -/
def code : Refusal → String
  | .invalidOption _ => "invalid_option"
  | .missingOption _ => "missing_option"
  | .unknownKind _ => "unknown_kind"
  | .unknownCommand _ => "unknown_command"
  | .settings e => Enumeration.name e
  | .amount e => Enumeration.name e
  | .record e => Enumeration.name e
  | .unknownName e _ => Enumeration.name e

/-- Where it is wrong; empty if there is nothing to add. -/
def detail : Refusal → String
  | .invalidOption detail => detail
  | .missingOption name => "--" ++ name
  | .unknownKind name => name
  | .unknownCommand name => name
  | .settings _ => ""
  | .amount _ => ""
  | .record _ => ""
  | .unknownName _ name => name

/-- The line that reports a refusal. -/
def line (r : Refusal) : String :=
  "error: " ++ r.code ++ (if r.detail = "" then "" else " (" ++ r.detail ++ ")") ++ "\n"

end Refusal

end WalletLedger.CommandLine
