import WalletLedger.Decimal

/-!
# Thousandths of a satoshi

Lightning fees are reckoned in thousandths of a satoshi and shown in satoshis, as a decimal number
that is exact and as short as possible.
-/

namespace WalletLedger

/-- A count of thousandths of a satoshi, in which Lightning fees are reckoned. -/
structure Millisats where
  count : UInt64
  deriving DecidableEq

namespace Millisats

/-- The number of satoshis as a decimal number with up to three places. -/
def chars (m : Millisats) : List Char :=
  Decimal.withPlaces (Decimal.digits (m.count.toNat / 1000))
    (Decimal.padded 3 (m.count.toNat % 1000))

/-- The text of an amount in satoshis: `12.05 sats`. -/
def text (m : Millisats) : String := String.ofList m.chars ++ " sats"

end Millisats

end WalletLedger
