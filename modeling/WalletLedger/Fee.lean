import WalletLedger.Amount
import WalletLedger.Binary64

/-!
# Proportional fees

A fee schedule takes a percentage of an amount, rounds it up to whole units and never asks for
less than a minimum. The percentage is a binary floating-point number, and so is the raw fee;
binary noise would push many exact fees just above a whole number. A raw fee within a relative
distance of `10 ^ -9` of a whole number therefore counts as that number.

The version of a schedule's layout is a constant that no fee depends on and is left out.
-/

namespace WalletLedger

/-- A percentage of an amount, where 1.5 takes 1.5 units of a hundred, and a number of units below
which no fee falls. -/
structure FeeSchedule where
  percentage : Binary64
  minimum : UInt64
  deriving DecidableEq

namespace FeeSchedule

/-- The distance from a whole number at or below one that still counts as that number. -/
def tolerance : Rat := Binary64.nearest (1 / 1000000000)

/-- The percentage of the amount before it is rounded to whole units. Converting the amount,
dividing it by a hundred and multiplying it by the percentage each round to the binary grid. -/
def raw (s : FeeSchedule) (a : Amount) : Rat :=
  Binary64.nearest
    (Binary64.nearest (Binary64.nearest a.units.toNat / 100) * s.percentage.value)

/-- How far from a whole number a raw fee may lie and still count as that number. -/
def slack (whole : Int) : Rat :=
  Binary64.nearest (tolerance * if (1 : Rat) < whole then (whole : Rat) else 1)

/-- The whole number of units that a raw fee comes to: the nearest whole number if it is close
enough, else the next one up. -/
def wholeUnits (raw : Rat) : Int :=
  let near := Rounding.nearest .awayFromZero raw
  if (Binary64.nearest (raw - near)).abs ≤ slack near then near else raw.ceil

/-- The fee on an amount. A whole number outside the range of a word wraps around it. -/
def fee (s : FeeSchedule) (a : Amount) : Amount :=
  ⟨max (UInt64.ofInt (wholeUnits (s.raw a))) s.minimum⟩

end FeeSchedule

end WalletLedger
