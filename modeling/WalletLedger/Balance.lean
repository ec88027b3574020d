import WalletLedger.Fee

/-!
# A balance and the steps taken with it

A balance is one amount that is set, added to, taken from, doubled, charged a fee and compared. A
step that answers an amount makes that amount the new balance (`Balance.next`). A step that is
refused, or that breaks the limit of amounts, leaves the balance as it was, and the steps after it
go on from there.
-/

namespace WalletLedger.Balance

/-- One thing done with a balance: it starts over, an amount is added or taken away, it is added to
itself, its own fee is taken out of it or added to it, or it is compared with an amount. -/
inductive Step where
  | set (units : Int64)
  | add (amount : Amount)
  | subtract (amount : Amount)
  | double
  | charge (schedule : FeeSchedule)
  | chargeOnTop (schedule : FeeSchedule)
  | compare (amount : Amount)

/-- What a step answers: an amount or why there is none, the fee with what came of it, or how the
balance stands to another amount. -/
inductive Answer where
  | result (result : Except AmountError Amount)
  | charged (fee : Amount) (result : Except AmountError Amount)
  | order (ordering : Ordering)

/-- The amount that an answer leaves as the new balance. -/
def Answer.amount? : Answer → Option Amount
  | .result (.ok a) => some a
  | .charged _ (.ok a) => some a
  | _ => none

/-- What a step answers on a balance. -/
def answer (balance : Amount) : Step → Except Breach Answer
  | .set units => .ok (.result (Amount.ofUnits units))
  | .add amount => (balance.add amount).map fun sum => .result (.ok sum)
  | .subtract amount => .ok (.result (balance.subtract amount))
  | .double => (balance.add balance).map fun sum => .result (.ok sum)
  | .charge schedule =>
    .ok (.charged (schedule.fee balance) (balance.subtract (schedule.fee balance)))
  | .chargeOnTop schedule =>
    (balance.add (schedule.fee balance)).map fun sum => .charged (schedule.fee balance) (.ok sum)
  | .compare amount => .ok (.order (Ord.compare balance amount))

/-- The balance after a step. -/
def next (balance : Amount) (step : Step) : Amount :=
  match answer balance step with
  | .ok a => a.amount?.getD balance
  | .error _ => balance

/-- The answers to a list of steps, one after the other. -/
def answers (balance : Amount) : List Step → List (Except Breach Answer)
  | [] => []
  | step :: rest => answer balance step :: answers (next balance step) rest

/-- The balance after a list of steps. -/
def after (balance : Amount) (steps : List Step) : Amount := steps.foldl next balance

/-- The balance that a session begins with. -/
def initial : Amount := Amount.zero

end WalletLedger.Balance
