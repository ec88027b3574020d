import WalletLedger.Fee
import WalletLedger.Log

/-!
# The catalog of liquidity options

A liquidity option is an offer: how much may be traded, within which bounds to deposit, at which fee
and leverage. Catalogs arrive as rows of signed numbers. A row with a negative unit count makes no
option, and a catalog with such a row is refused as a whole: `Catalog.read` stops at the first one
and logs it alone.

Rows, offers and fee schedules are exchanged with a number for the version of their layout. It is
the same for all of them and nothing reads it, so it is left out.
-/

namespace WalletLedger

/-- An offer as it is listed in a catalog, before its numbers are checked: the largest trade, the
bounds of a deposit and the smallest fee in satoshis, the fee in percent, and the leverage that the
other side takes. -/
structure CatalogRow where
  id : Int64
  title : String
  tradeUpTo : Int64
  minDeposit : Int64
  maxDeposit : Int64
  feePercentage : Binary64
  minFee : Int64
  leverage : Binary64
  deriving DecidableEq

/-- An offer of liquidity. -/
structure LiquidityOption where
  id : Int64
  title : String
  tradeUpTo : Amount
  minDeposit : Amount
  maxDeposit : Amount
  fee : FeeSchedule
  leverage : Binary64
  deriving DecidableEq

namespace LiquidityOption

/-- The option that a row offers; a row with a negative unit count offers none. -/
def ofRow (row : CatalogRow) : Except AmountError LiquidityOption := do
  let tradeUpTo ← Amount.ofUnits row.tradeUpTo
  let minDeposit ← Amount.ofUnits row.minDeposit
  let maxDeposit ← Amount.ofUnits row.maxDeposit
  let minFee ← Amount.ofUnits row.minFee
  return {
    id := row.id
    title := row.title
    tradeUpTo
    minDeposit
    maxDeposit
    fee := ⟨row.feePercentage, minFee.units⟩
    leverage := row.leverage }

end LiquidityOption

namespace Catalog

/-- What reading a catalog comes to. -/
structure Reading where
  result : Except AmountError (List LiquidityOption)
  log : List LogLine

/-- The options of all rows, or the first row that makes none and the reason. -/
def options (rows : List CatalogRow) : Except (CatalogRow × AmountError) (List LiquidityOption) :=
  rows.mapM fun row => (LiquidityOption.ofRow row).mapError fun e => (row, e)

/-- The warning about a row that makes no option. -/
def rejectionLine (row : CatalogRow) (e : AmountError) : LogLine :=
  ⟨.warning, "liquidity option " ++ Decimal.signedText row.id.toInt ++ " rejected: "
    ++ Enumeration.name e⟩

/-- The note on a catalog that was read. -/
def countLine (n : Nat) : LogLine := ⟨.debug, "mapped " ++ Decimal.text n ++ " liquidity options"⟩

/-- Reads a catalog: all of its options, or the error of the first row that makes none. -/
def read (rows : List CatalogRow) : Reading :=
  match options rows with
  | .ok os => ⟨.ok os, [countLine os.length]⟩
  | .error (row, e) => ⟨.error e, [rejectionLine row e]⟩

end Catalog

end WalletLedger
