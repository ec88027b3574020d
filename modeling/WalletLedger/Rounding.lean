/-!
# Rounding to a whole number

`nearest` takes a rational number to the nearest integer. A number halfway between two integers goes
where the `Tie` rule sends it: to the even one, as the binary formats do, or away from zero.
-/

namespace WalletLedger.Rounding

/-- Which of two equally near integers is taken: the even one, or the one that is further from
zero. -/
inductive Tie where
  | toEven
  | awayFromZero
  deriving DecidableEq

/-- The integer nearest to `x`. -/
def nearest (tie : Tie) (x : Rat) : Int :=
  let below := x.floor
  if x - below < 1 / 2 then below
  else if 1 / 2 < x - below then below + 1
  else match tie with
    | .toEven => below + below % 2
    | .awayFromZero => if x < 0 then below else below + 1

end WalletLedger.Rounding
