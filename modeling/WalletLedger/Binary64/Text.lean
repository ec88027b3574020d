import WalletLedger.Binary64
import WalletLedger.Decimal

/-!
# The text of a binary floating-point number

A number is shown with six significant digits, rounded from its exact value with ties to the even
digit. Numbers from a ten-thousandth up to a million stand with their digits in place, others with
one digit before the point and a power of ten. Zeros at the end of the places are left away.
-/

namespace WalletLedger.Binary64

/-- Six significant digits of a number, read as a whole number from 100000 to 999999, and the power
of ten that the first of them counts. -/
structure SixDigits where
  digits : Nat
  exponent : Int
  deriving DecidableEq

/-- The exponent of the largest power of ten at or below a positive rational. The lengths of
numerator and denominator give it up to one. -/
def log10 (x : Rat) : Int :=
  let guess : Int :=
    ((Decimal.digits x.num.natAbs).length : Int) - ((Decimal.digits x.den).length : Int)
  if x < (10 : Rat) ^ guess then guess - 1 else guess

/-- A positive rational to six significant digits. Rounding up may add a digit, and then the first
of them counts ten times as much. -/
def sixDigits (x : Rat) : SixDigits :=
  let exponent := log10 x
  let digits := (Rounding.nearest .toEven (x / (10 : Rat) ^ (exponent - 5))).toNat
  if digits = 1000000 then ⟨100000, exponent + 1⟩ else ⟨digits, exponent⟩

namespace SixDigits

/-- The digits in their places. -/
def positional (d : SixDigits) : List Char :=
  let digits := Decimal.digits d.digits
  if d.exponent < 0 then
    Decimal.withPlaces ['0'] (List.replicate (-d.exponent - 1).toNat '0' ++ digits)
  else
    Decimal.withPlaces (digits.take (d.exponent.toNat + 1)) (digits.drop (d.exponent.toNat + 1))

/-- The digits with a power of ten, which has a sign and at least two digits. -/
def scientific (d : SixDigits) : List Char :=
  let digits := Decimal.digits d.digits
  Decimal.withPlaces (digits.take 1) (digits.drop 1)
    ++ 'e' :: (if d.exponent < 0 then '-' else '+') :: Decimal.padded 2 d.exponent.natAbs

/-- The digits as they are shown: in their places for exponents from -4 to 5. -/
def chars (d : SixDigits) : List Char :=
  if -4 ≤ d.exponent ∧ d.exponent < 6 then d.positional else d.scientific

end SixDigits

/-- The text of a number without its sign. -/
def unsignedChars (x : Binary64) : List Char :=
  if !x.isFinite then ['i', 'n', 'f']
  else if x.significand = 0 then ['0']
  else (sixDigits x.magnitude).chars

/-- The text of a word. The sign of zero is shown. -/
def text (x : Binary64) : String :=
  if x.isNaN then (if x.isNegative then "-nan" else "nan")
  else String.ofList (if x.isNegative then '-' :: x.unsignedChars else x.unsignedChars)

end WalletLedger.Binary64
