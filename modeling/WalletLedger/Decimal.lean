/-!
# Decimal digits

Numbers are written in decimal with the digits of core's `Nat.toDigits`, as short as possible
(`digits`) or filled up with zeros on the left to a given width (`padded`). `value` reads either
back (`value_digits`, `value_padded`). Places after a point are written without zeros at the end,
and the point only before places that are left (`withPlaces`).
-/

namespace WalletLedger.Decimal

/-- The decimal digits of a number, without leading zeros. -/
def digits (n : Nat) : List Char := Nat.toDigits 10 n

/-- The decimal digits of a number after as many zeros as make up the width. -/
def padded (width n : Nat) : List Char :=
  List.replicate (width - (digits n).length) '0' ++ digits n

/-- The number that decimal digits stand for. -/
def value (cs : List Char) : Nat := Nat.ofDigitChars 10 cs 0

/-- Digits without the zeros at their end. -/
def trimmed (cs : List Char) : List Char := (cs.reverse.dropWhile (· == '0')).reverse

/-- A whole number and the places after its point. -/
def withPlaces (whole places : List Char) : List Char :=
  if trimmed places = [] then whole else whole ++ '.' :: trimmed places

/-- The decimal text of a number. -/
def text (n : Nat) : String := String.ofList (digits n)

/-- The decimal text of a whole number, with a minus sign before a negative one. -/
def signedText (n : Int) : String := if n < 0 then "-" ++ text n.natAbs else text n.natAbs

@[simp] theorem value_digits (n : Nat) : value (digits n) = n := Nat.ofDigitChars_ten_toDigits

@[simp] theorem value_padded (width n : Nat) : value (padded width n) = n := by
  simp [value, padded, digits, Nat.ofDigitChars_append, Nat.ofDigitChars_ten_toDigits]

@[simp] theorem toList_text (n : Nat) : (text n).toList = digits n := String.toList_ofList

theorem digits_ne_nil (n : Nat) : digits n ≠ [] := Nat.toDigits_ne_nil

theorem isDigit_of_mem_digits {n : Nat} {c : Char} (h : c ∈ digits n) : c.isDigit :=
  Nat.isDigit_of_mem_toDigits (by decide) (by decide) h

theorem length_padded (width n : Nat) : (padded width n).length = max width (digits n).length := by
  simp [padded]; omega

end WalletLedger.Decimal
