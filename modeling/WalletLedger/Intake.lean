import WalletLedger.Log
import WalletLedger.Record

/-!
# Taking in records

`Intake.ofRecords` goes through a list of raw records once. It keeps the entries of those that make
one, in their order, and notes each of the others with its place in the list and the reason. The log
warns of every rejected record and ends with the two counts.
-/

namespace WalletLedger

/-- A record that makes no entry: its place in the list, counted from zero, and the reason. -/
structure Rejection where
  index : Nat
  reason : RecordError
  deriving DecidableEq

/-- The warning about a rejected record. -/
def Rejection.line (r : Rejection) : LogLine :=
  ⟨.warning, "ledger record " ++ Decimal.text r.index ++ " rejected: " ++ Enumeration.name r.reason⟩

/-- What came of a list of records: the entries of the accepted ones, and the others. -/
structure Intake where
  entries : List Entry
  rejected : List Rejection
  deriving DecidableEq

namespace Intake

/-- Takes in the records of which the first has this place. -/
def ofRecordsFrom (index : Nat) : List Record → Intake
  | [] => ⟨[], []⟩
  | r :: rest =>
    let others := ofRecordsFrom (index + 1) rest
    match r.toEntry with
    | .ok entry => { others with entries := entry :: others.entries }
    | .error reason => { others with rejected := ⟨index, reason⟩ :: others.rejected }

/-- Takes in a list of records. -/
def ofRecords (records : List Record) : Intake := ofRecordsFrom 0 records

/-- The note on a list that was taken in. -/
def countLine (i : Intake) : LogLine :=
  ⟨.debug, "history snapshot built with " ++ Decimal.text i.entries.length ++ " entries, "
    ++ Decimal.text i.rejected.length ++ " rejected"⟩

/-- What is logged when a list is taken in. -/
def log (i : Intake) : List LogLine := i.rejected.map Rejection.line ++ [i.countLine]

end Intake

end WalletLedger
