import WalletLedger.Amount
import WalletLedger.Millisats
import WalletLedger.Movement
import WalletLedger.Timestamp

/-!
# Entries of the wallet's history

An entry says which way money moved, how far the movement has come, when and how much, and carries
the particulars of its kind. There are five kinds. The particulars of a Lightning payment and of an
on-chain payment take one form in raw records and another in entries, so `Payload` leaves both open.

Entries and their particulars are stored with the version of their layout, a constant. Nothing that
is shown or reckoned depends on it, and it is left out here and in raw records.
-/

namespace WalletLedger

/-- What an entry is about: a payment over the Lightning network, a position that was opened or
closed, the fee for matching an order, the fee for a channel that was opened just in time, or a
payment by a transaction on the chain. -/
inductive Kind where
  | lightningPayment
  | trade
  | orderMatchingFee
  | jitChannelOpenFee
  | onChainPayment
  deriving DecidableEq

/-- The names of the kinds. -/
def Kind.table : NameTable Kind :=
  ⟨[("lightning_payment", .lightningPayment), ("trade", .trade),
    ("order_matching_fee", .orderMatchingFee), ("jit_channel_open_fee", .jitChannelOpenFee),
    ("on_chain_payment", .onChainPayment)]⟩

/-- The particulars of an entry of each kind. `Lightning` and `OnChain` hold those of the two
kinds of payment. A trade and a matching fee have their order, a matching fee is known by the hash
of its payment, and a channel fee by the transaction that funds the channel. -/
inductive Payload (Lightning OnChain : Type) where
  | lightning (payment : Lightning)
  | trade (orderId : String)
  | orderMatchingFee (orderId paymentHash : String)
  | jitChannelOpenFee (txid : String)
  | onChain (payment : OnChain)
  deriving DecidableEq

/-- The kind that a payload belongs to. -/
def Payload.kind {Lightning OnChain : Type} : Payload Lightning OnChain → Kind
  | .lightning _ => .lightningPayment
  | .trade _ => .trade
  | .orderMatchingFee _ _ => .orderMatchingFee
  | .jitChannelOpenFee _ => .jitChannelOpenFee
  | .onChain _ => .onChainPayment

/-- The particulars of a payment over the Lightning network. The fee is what it cost its sender, the
hash is the name by which it is known, and the preimage is the proof of it. -/
structure LightningPayment where
  fee : Option Millisats
  expiry : Option Timestamp
  invoice : Option String
  description : String
  paymentHash : String
  preimage : Option String
  deriving DecidableEq

/-- The particulars of a payment on the chain: its transaction, how many blocks confirm it, and what
it cost. -/
structure OnChainPayment where
  txid : String
  confirmations : UInt32
  fee : Option Amount
  deriving DecidableEq

/-- One line of the wallet's history. Flow and status are stored as codes, which need not be those
of a listed value. -/
structure Entry where
  flow : Coded Flow
  status : Coded Status
  timestamp : Timestamp
  amount : Amount
  payload : Payload LightningPayment OnChainPayment
  deriving DecidableEq

namespace Entry

/-- The kind of an entry. -/
def kind (e : Entry) : Kind := e.payload.kind

/-- The amount with the sign of its flow. -/
def signedUnits (e : Entry) : Except Breach Int :=
  if Amount.limit < e.amount.units then .error .unsignableAmount
  else (Movement.classify e.flow e.status).map fun c => c.sign * (e.amount.units.toNat : Int)

/-- What the owner of the wallet does or did: `You received`. -/
def headline (e : Entry) : Except Breach String :=
  (Movement.classify e.flow e.status).map fun c => "You " ++ c.verb

/-- Whether the entry is a transaction on the chain of its own. -/
def isOnChain (e : Entry) : Bool := e.kind == .onChainPayment

/-- Where the movement took place. -/
def chainLabel (e : Entry) : String := if e.isOnChain then "on-chain" else "off-chain"

/-- The title of the entry. A position is closed by money that comes in. -/
def title (e : Entry) : String :=
  match e.kind with
  | .lightningPayment => "Payment"
  | .trade => if e.flow = .listed .inbound then "Closed position" else "Opened position"
  | .orderMatchingFee => "Matching fee"
  | .jitChannelOpenFee => "Channel opening fee"
  | .onChainPayment => "Payment"

end Entry

end WalletLedger
