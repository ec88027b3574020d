import WalletLedger.Entry

/-!
# Raw records

A raw record is a history entry as it is fed in: names where entries have enumerations, signed
numbers where they have counts. `Record.toEntry` checks the names and the required numbers one
after the other and gives the reason for the first that fails. A malformed optional field rejects
nothing; it is left out. `Record.ofEntry` writes an entry back. The constant version of the layout,
which records carry too, is neither read nor written.
-/

namespace WalletLedger

/-- Why a record makes no entry: the amount or the time is negative, no flow or status has the name,
or the number of confirmations is negative or does not fit in 32 bits. -/
inductive RecordError where
  | invalidAmount
  | unknownFlow
  | unknownStatus
  | invalidTimestamp
  | invalidConfirmations
  deriving DecidableEq

instance : Enumeration RecordError where
  table := ⟨[("invalid_amount", .invalidAmount), ("unknown_flow", .unknownFlow),
    ("unknown_status", .unknownStatus), ("invalid_timestamp", .invalidTimestamp),
    ("invalid_confirmations", .invalidConfirmations)]⟩
  code
    | .invalidAmount => 1
    | .unknownFlow => 2
    | .unknownStatus => 3
    | .invalidTimestamp => 4
    | .invalidConfirmations => 5

/-- A payment over the Lightning network as it is fed in, with the fee in thousandths of a satoshi
and the expiry in milliseconds since the beginning of 1970. -/
structure LightningRecord where
  feeMsats : Option Int64
  expiry : Option Int64
  invoice : Option String
  description : String
  paymentHash : String
  preimage : Option String
  deriving DecidableEq

/-- A payment on the chain as it is fed in, with the fee in satoshis. -/
structure OnChainRecord where
  txid : String
  confirmations : Int64
  feeSats : Option Int64
  deriving DecidableEq

/-- A history entry as it is fed in: the names of its flow and status, the time in milliseconds
since the beginning of 1970, the amount in satoshis, and the particulars of its kind. -/
structure Record where
  flow : String
  status : String
  timestamp : Int64
  amount : Int64
  payload : Payload LightningRecord OnChainRecord
  deriving DecidableEq

/-- An optional number, left out if it is negative. -/
def countOrAbsent (n : Option Int64) : Option UInt64 := n.bind unsigned?

/-- An optional text, left out if it is empty. -/
def textOrAbsent (s : Option String) : Option String := s.filter fun text => text != ""

/-- A number of confirmations, if it is one and fits in 32 bits. -/
def confirmations? (n : Int64) : Option UInt32 :=
  if n < 0 ∨ 4294967295 < n then none else some n.toUInt64.toUInt32

namespace LightningRecord

/-- The particulars of the payment. Nothing can be wrong with them. -/
def toPayment (r : LightningRecord) : LightningPayment where
  fee := (countOrAbsent r.feeMsats).map Millisats.mk
  expiry := (countOrAbsent r.expiry).map Timestamp.mk
  invoice := textOrAbsent r.invoice
  description := r.description
  paymentHash := r.paymentHash
  preimage := textOrAbsent r.preimage

/-- The record of a payment. -/
def ofPayment (p : LightningPayment) : LightningRecord where
  feeMsats := p.fee.map fun fee => fee.count.toInt64
  expiry := p.expiry.map fun time => time.milliseconds.toInt64
  invoice := p.invoice
  description := p.description
  paymentHash := p.paymentHash
  preimage := p.preimage

end LightningRecord

namespace OnChainRecord

/-- The particulars of the payment, if the number of confirmations is one. -/
def toPayment? (r : OnChainRecord) : Option OnChainPayment :=
  (confirmations? r.confirmations).map fun confirmations =>
    { txid := r.txid
      confirmations
      fee := (countOrAbsent r.feeSats).map Amount.mk }

/-- The record of a payment. -/
def ofPayment (p : OnChainPayment) : OnChainRecord where
  txid := p.txid
  confirmations := p.confirmations.toUInt64.toInt64
  feeSats := p.fee.map fun fee => fee.units.toInt64

end OnChainRecord

/-- The particulars of a record's kind, if there is nothing wrong with them. -/
def payload? :
    Payload LightningRecord OnChainRecord → Option (Payload LightningPayment OnChainPayment)
  | .lightning r => some (.lightning r.toPayment)
  | .trade orderId => some (.trade orderId)
  | .orderMatchingFee orderId paymentHash => some (.orderMatchingFee orderId paymentHash)
  | .jitChannelOpenFee txid => some (.jitChannelOpenFee txid)
  | .onChain r => r.toPayment?.map Payload.onChain

namespace Record

/-- The value, or the reason why there is none. -/
def orReject {α : Type} (reason : RecordError) : Option α → Except RecordError α
  | some value => .ok value
  | none => .error reason

/-- The entry that a record makes, or the first reason against it. -/
def toEntry (r : Record) : Except RecordError Entry := do
  let flow ← orReject .unknownFlow (Flow.table.value? r.flow)
  let status ← orReject .unknownStatus (Status.table.value? r.status)
  let milliseconds ← orReject .invalidTimestamp (unsigned? r.timestamp)
  let amount ← orReject .invalidAmount (Amount.ofUnits? r.amount)
  let payload ← orReject .invalidConfirmations (payload? r.payload)
  return {
    flow := .listed flow
    status := .listed status
    timestamp := ⟨milliseconds⟩
    amount
    payload }

/-- The record of an entry's particulars. -/
def ofPayload : Payload LightningPayment OnChainPayment → Payload LightningRecord OnChainRecord
  | .lightning p => .lightning (.ofPayment p)
  | .trade orderId => .trade orderId
  | .orderMatchingFee orderId paymentHash => .orderMatchingFee orderId paymentHash
  | .jitChannelOpenFee txid => .jitChannelOpenFee txid
  | .onChain p => .onChain (.ofPayment p)

/-- The record that an entry is written back as. -/
def ofEntry (e : Entry) : Record where
  flow := e.flow.name
  status := e.status.name
  timestamp := e.timestamp.milliseconds.toInt64
  amount := e.amount.units.toInt64
  payload := ofPayload e.payload

end Record

end WalletLedger
