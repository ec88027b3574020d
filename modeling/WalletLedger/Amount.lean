import WalletLedger.Breach
import WalletLedger.Decimal
import WalletLedger.Enumeration

/-!
# Amounts of money

An `Amount` is a count of satoshis in a 64-bit word. Direction is never folded into it. Amounts that
come from signed numbers and sums of amounts stay at or below `Amount.limit`, the largest signed
64-bit number; differences are bounded by what they are taken from. A sum beyond the limit is a
breach, a difference below zero is an ordinary refusal.
-/

namespace WalletLedger

/-- Why an amount was refused: the number is negative, or more was taken from an amount than it
holds. -/
inductive AmountError where
  | invalidAmount
  | underflow
  deriving DecidableEq

instance : Enumeration AmountError where
  table := ⟨[("invalid_amount", .invalidAmount), ("underflow", .underflow)]⟩
  code
    | .invalidAmount => 1
    | .underflow => 2

/-- A signed number that is not negative, as an unsigned one. -/
def unsigned? (n : Int64) : Option UInt64 := if n < 0 then none else some n.toUInt64

/-- A count of satoshis. -/
structure Amount where
  units : UInt64
  deriving DecidableEq

namespace Amount

instance : LT Amount := ⟨fun a b => a.units < b.units⟩

instance : LE Amount := ⟨fun a b => a.units ≤ b.units⟩

instance (a b : Amount) : Decidable (a < b) := inferInstanceAs (Decidable (a.units < b.units))

instance (a b : Amount) : Decidable (a ≤ b) := inferInstanceAs (Decidable (a.units ≤ b.units))

instance : Ord Amount := ⟨fun a b => compare a.units b.units⟩

/-- The amount of nothing. -/
def zero : Amount := ⟨0⟩

/-- The largest unit count with a signed counterpart of the same width. -/
def limit : UInt64 := 9223372036854775807

/-- The amount of so many units, unless the number is negative. -/
def ofUnits? (n : Int64) : Option Amount := (unsigned? n).map Amount.mk

/-- The amount of so many units; a negative number is an invalid amount. -/
def ofUnits (n : Int64) : Except AmountError Amount :=
  match ofUnits? n with
  | some a => .ok a
  | none => .error .invalidAmount

/-- The sum of two amounts. The second amount is held against what the limit leaves beside the
first, so no intermediate number leaves the word. -/
def add (a b : Amount) : Except Breach Amount :=
  if limit < a.units ∨ limit - a.units < b.units then .error .amountOverflow
  else .ok ⟨a.units + b.units⟩

/-- What is left of `a` without `b`. -/
def subtract (a b : Amount) : Except AmountError Amount :=
  if a.units < b.units then .error .underflow else .ok ⟨a.units - b.units⟩

/-- The amount as it is shown: `1500 sats`. -/
def text (a : Amount) : String := Decimal.text a.units.toNat ++ " sats"

end Amount

end WalletLedger
