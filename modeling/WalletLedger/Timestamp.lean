import WalletLedger.Calendar

/-!
# Points in time

Times are recorded in milliseconds and shown to the second, in UTC.
-/

namespace WalletLedger

/-- A point in time, in milliseconds since the beginning of 1970. -/
structure Timestamp where
  milliseconds : UInt64
  deriving DecidableEq

namespace Timestamp

/-- The full seconds since the beginning of 1970. -/
def seconds (t : Timestamp) : Nat := t.milliseconds.toNat / 1000

/-- The date and time of day in UTC, to the second. -/
def text (t : Timestamp) : String := (DateTime.ofSeconds t.seconds).text

end Timestamp

end WalletLedger
