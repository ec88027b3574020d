import WalletLedger.Rounding

/-!
# Binary floating-point numbers of 64 bits

A `Binary64` is a word whose 1 sign bit, 11 exponent bits and 52 fraction bits stand for a rational
number (`Binary64.value`), an infinity or no number. Arithmetic needs no words: a finite operation
is the exact operation on rationals followed by `Binary64.nearest`, which takes a rational to the
nearest point of the format's grid and a tie to the point with an even significand.

The grid is that of the format without its upper end. It agrees with the format below `2 ^ 1024`.
-/

namespace WalletLedger

/-- A word of the 64-bit binary interchange format: the sign, exponent and fraction fields, from the
high bits to the low. -/
structure Binary64 where
  bits : UInt64
  deriving DecidableEq

namespace Binary64

/-- One more than the largest fraction field, which is also the leading bit of a normal
significand. -/
def hiddenBit : Nat := 4503599627370496

/-- The exponent field of infinities and of what is no number. -/
def reservedExponent : Nat := 2047

/-- The exponent of the least significant bit of the smallest numbers. -/
def leastQuantum : Int := -1074

/-- Zero, with the sign bit clear. -/
def zero : Binary64 := ⟨0⟩

/-- The number one. -/
def one : Binary64 := ⟨0x3ff0000000000000⟩

/-- Whether the sign bit is set. -/
def isNegative (x : Binary64) : Bool := 0x8000000000000000 ≤ x.bits

/-- The eleven exponent bits. -/
def exponentField (x : Binary64) : Nat := x.bits.toNat / hiddenBit % (reservedExponent + 1)

/-- The fifty-two fraction bits. -/
def fractionField (x : Binary64) : Nat := x.bits.toNat % hiddenBit

/-- Whether the word stands for a rational number. -/
def isFinite (x : Binary64) : Bool := x.exponentField < reservedExponent

/-- Whether the word stands for no number at all, not even an infinity. -/
def isNaN (x : Binary64) : Bool := !x.isFinite && x.fractionField != 0

/-- The significand as a whole number. -/
def significand (x : Binary64) : Nat :=
  if x.exponentField = 0 then x.fractionField else hiddenBit + x.fractionField

/-- The exponent of the significand's last bit. -/
def quantumExponent (x : Binary64) : Int :=
  if x.exponentField = 0 then leastQuantum else leastQuantum - 1 + x.exponentField

/-- The number without its sign. -/
def magnitude (x : Binary64) : Rat := (x.significand : Rat) * (2 : Rat) ^ x.quantumExponent

/-- The rational number that a finite word stands for; other words stand for none and get zero. -/
def value (x : Binary64) : Rat :=
  if x.isFinite then if x.isNegative then -x.magnitude else x.magnitude else 0

/-! ### The grid -/

/-- The exponent of the largest power of two at or below a positive rational. The bit lengths of
numerator and denominator give it up to one. -/
def log2 (x : Rat) : Int :=
  let guess : Int := (Nat.log2 x.num.natAbs : Int) - (Nat.log2 x.den : Int)
  if x < (2 : Rat) ^ guess then guess - 1 else guess

/-- The exponent of the spacing of the grid around `x`: the last of 53 significant bits, but never
below the last bit of the smallest numbers. -/
def quantumAt (x : Rat) : Int := max leastQuantum (log2 x.abs - 52)

/-- The point of the grid nearest to `x`. -/
def nearest (x : Rat) : Rat :=
  if x = 0 then 0
  else (Rounding.nearest .toEven (x / (2 : Rat) ^ quantumAt x) : Rat) * (2 : Rat) ^ quantumAt x

/-- The word for the point of the grid nearest to `x`, or for an infinity if that point is too large
for the format. The leading bit of a normal significand adds one to the exponent field. -/
def ofRat (x : Rat) : Binary64 :=
  let point := nearest x.abs
  let exponent := quantumAt point - leastQuantum
  let significand := (point / (2 : Rat) ^ quantumAt point).floor
  let magnitude :=
    if point = 0 then 0
    else if 2046 ≤ exponent then reservedExponent * hiddenBit
    else exponent.toNat * hiddenBit + significand.toNat
  ⟨UInt64.ofNat magnitude + if x < 0 then 0x8000000000000000 else 0⟩

end Binary64

end WalletLedger
