import WalletLedger.Catalog
import WalletLedger.CommandLine.Options
import WalletLedger.CommandLine.Refusal

/-!
# What the options ask for

Each command reads the options it needs, in a fixed order, and checks them. The first check that
fails is the reason for which the command is refused. Options that a command does not read do not
matter to it.
-/

namespace WalletLedger.CommandLine

/-- The commands: to put a movement into words, to reckon a fee, to show an offer and to show an
entry. -/
inductive Command where
  | classify
  | fee
  | option
  | entry
  deriving DecidableEq

/-- The names of the commands. -/
def Command.table : NameTable Command :=
  ⟨[("classify", .classify), ("fee", .fee), ("option", .option), ("entry", .entry)]⟩

/-- The value of an option that must be given. -/
def required {α : Type} (name : String) : Option α → Except Refusal α
  | some value => .ok value
  | none => .error (.missingOption name)

/-- A value, or the reason why there is none. -/
def orRefuse {α : Type} (refusal : Refusal) : Option α → Except Refusal α
  | some value => .ok value
  | none => .error refusal

namespace Options

/-- The flow that is named. -/
def readFlow (o : Options) : Except Refusal Flow := do
  let name ← required "flow" o.flow
  orRefuse (.unknownName .unknownFlow name) (Flow.table.value? name)

/-- The status that is named. -/
def readStatus (o : Options) : Except Refusal Status := do
  let name ← required "status" o.status
  orRefuse (.unknownName .unknownStatus name) (Status.table.value? name)

/-- The movement to be put into words. -/
def readMovement (o : Options) : Except Refusal (Flow × Status) := do
  let flow ← o.readFlow
  let status ← o.readStatus
  return (flow, status)

/-- An amount of so many units. -/
def readAmount (units : Int64) : Except Refusal Amount :=
  (Amount.ofUnits units).mapError Refusal.amount

/-- The fee to be reckoned: the schedule and the amount. -/
def readFee (o : Options) : Except Refusal (FeeSchedule × Amount) := do
  let units ← required "amount" o.amount
  let minimum ← readAmount o.minFee
  let amount ← readAmount units
  return (⟨o.feePercentage, minimum.units⟩, amount)

/-- The catalog row that the options describe. -/
def readCatalogRow (o : Options) : Except Refusal CatalogRow := do
  let id ← required "id" o.id
  let tradeUpTo ← required "trade-up-to" o.tradeUpTo
  let minDeposit ← required "min-deposit" o.minDeposit
  let maxDeposit ← required "max-deposit" o.maxDeposit
  return {
    id
    title := o.title
    tradeUpTo
    minDeposit
    maxDeposit
    feePercentage := o.feePercentage
    minFee := o.minFee
    leverage := o.leverage }

/-- The offer to be shown. -/
def readOption (o : Options) : Except Refusal LiquidityOption := do
  let row ← o.readCatalogRow
  (LiquidityOption.ofRow row).mapError Refusal.amount

/-- The particulars of an entry of a kind. -/
def readPayload (o : Options) : Kind → Except Refusal (Payload LightningRecord OnChainRecord)
  | .lightningPayment => do
    let paymentHash ← required "payment-hash" o.paymentHash
    return .lightning {
      feeMsats := o.feeMsats
      expiry := o.expiry
      invoice := o.invoice
      description := o.description
      paymentHash
      preimage := o.preimage }
  | .trade => do
    let orderId ← required "order-id" o.orderId
    return .trade orderId
  | .orderMatchingFee => do
    let orderId ← required "order-id" o.orderId
    let paymentHash ← required "payment-hash" o.paymentHash
    return .orderMatchingFee orderId paymentHash
  | .jitChannelOpenFee => do
    let txid ← required "txid" o.txid
    return .jitChannelOpenFee txid
  | .onChainPayment => do
    let txid ← required "txid" o.txid
    return .onChain { txid, confirmations := o.confirmations, feeSats := o.feeSats }

/-- The record that the options describe. -/
def readRecord (o : Options) : Except Refusal Record := do
  let flow ← required "flow" o.flow
  let status ← required "status" o.status
  let amount ← required "amount" o.amount
  let name ← required "kind" o.kind
  let kind ← orRefuse (.unknownKind name) (Kind.table.value? name)
  let payload ← o.readPayload kind
  return { flow, status, timestamp := o.timestamp, amount, payload }

/-- The entry to be shown. -/
def readEntry (o : Options) : Except Refusal Entry := do
  let record ← o.readRecord
  record.toEntry.mapError Refusal.record

end Options

end WalletLedger.CommandLine
