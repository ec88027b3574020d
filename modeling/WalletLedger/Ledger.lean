import WalletLedger.Intake
import WalletLedger.View

/-!
# The ledger and its snapshot

A ledger is a list of raw records that is added to, edited and cut, and a snapshot of the entries
that the records made when it was last refreshed. What is asked of the ledger is answered from the
snapshot, which no change of the records touches before the next refresh.
-/

namespace WalletLedger

/-- New values for some of the fields of a record. Those that are absent stay as they are. -/
structure RecordChange where
  flow : Option String
  status : Option String
  timestamp : Option Int64
  amount : Option Int64

/-- The record with the changed fields. -/
def RecordChange.apply (c : RecordChange) (r : Record) : Record :=
  { r with
    flow := c.flow.getD r.flow
    status := c.status.getD r.status
    timestamp := c.timestamp.getD r.timestamp
    amount := c.amount.getD r.amount }

/-- The sums of the inbound and of the outbound amounts, and the difference if the ledger is not
short. -/
structure Totals where
  inbound : Amount
  outbound : Amount
  net : Except AmountError Amount

/-- The sum of the amounts of a flow. -/
def flowTotal (flow : Flow) (entries : List Entry) : Except Breach Amount :=
  (entries.filter fun e => e.flow = .listed flow).foldlM (fun sum e => sum.add e.amount) Amount.zero

/-- The totals of a list of entries. -/
def totals (entries : List Entry) : Except Breach Totals := do
  let inbound ← flowTotal .inbound entries
  let outbound ← flowTotal .outbound entries
  return { inbound, outbound, net := inbound.subtract outbound }

/-- Raw records, and the entries of the snapshot that was made last, if there is one. -/
structure Ledger where
  records : List Record
  held : Option (List Entry)

namespace Ledger

/-- A ledger without records and without a snapshot. -/
def empty : Ledger := ⟨[], none⟩

/-- One thing done with a ledger: a record is added at the end, changed or taken out at a place, a
new snapshot is made, or the entries of the snapshot, their views or their totals are asked for. -/
inductive Step where
  | push (record : Record)
  | edit (index : Nat) (change : RecordChange)
  | remove (index : Nat)
  | refresh
  | held
  | view
  | totals

/-- What a step answers: the number of records, unless there is none at its place; what came of the
records; or what is asked for of the snapshot, if there is one. -/
inductive Answer where
  | count (records : Option Nat)
  | intake (intake : Intake)
  | entries (entries : Option (List Entry))
  | views (views : Option (List View))
  | totals (totals : Option Totals)

/-- The ledger after a step. -/
def next (l : Ledger) : Step → Ledger
  | .push record => { l with records := l.records ++ [record] }
  | .edit index change => { l with records := l.records.modify index change.apply }
  | .remove index => { l with records := l.records.eraseIdx index }
  | .refresh => { l with held := some (Intake.ofRecords l.records).entries }
  | .held => l
  | .view => l
  | .totals => l

/-- The number of records after a step, if the step found a record at its place. -/
def countAt (l : Ledger) (index : Nat) (step : Step) : Option Nat :=
  if index < l.records.length then some (l.next step).records.length else none

/-- What a step answers on a ledger. -/
def answer (l : Ledger) : Step → Except Breach Answer
  | .push record => .ok (.count (some (l.next (.push record)).records.length))
  | .edit index change => .ok (.count (l.countAt index (.edit index change)))
  | .remove index => .ok (.count (l.countAt index (.remove index)))
  | .refresh => .ok (.intake (Intake.ofRecords l.records))
  | .held => .ok (.entries l.held)
  | .view => .ok (.views (l.held.map fun entries => entries.map Entry.view))
  | .totals =>
    match l.held with
    | none => .ok (.totals none)
    | some entries => (WalletLedger.totals entries).map fun t => .totals (some t)

/-- The answers to a list of steps, one after the other. -/
def answers (l : Ledger) : List Step → List (Except Breach Answer)
  | [] => []
  | step :: rest => l.answer step :: (l.next step).answers rest

/-- The ledger after a list of steps. -/
def after (l : Ledger) (steps : List Step) : Ledger := steps.foldl next l

end Ledger

end WalletLedger
