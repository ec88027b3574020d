import WalletLedger.Entry

/-!
# The detail sheet of an entry

An entry is shown in full as a list of labelled rows. Each kind has rows of its own
(`Entry.detailRows`), of which those for absent particulars are left away, and all kinds have the
time and, unless the movement is settled, the status above them (`Entry.historyRows`).
-/

namespace WalletLedger

/-- How the value of a row wants to be shown: as text to copy, as the name of a transaction with a
link to its page, or as the time that has passed since. -/
inductive Hint where
  | code
  | transactionId
  | relativeTime
  deriving DecidableEq

instance : Enumeration Hint where
  table := ⟨[("code", .code), ("transaction_id", .transactionId), ("relative_time", .relativeTime)]⟩
  code
    | .code => 0
    | .transactionId => 1
    | .relativeTime => 2

/-- A line of the sheet: what the value is, the value, and how to show it if not as plain text. -/
structure Row where
  label : String
  value : String
  hint : Option Hint
  deriving DecidableEq

namespace Row

/-- A row of plain text. -/
def plain (label value : String) : Row := ⟨label, value, none⟩

/-- A row of text to copy. -/
def code (label value : String) : Row := ⟨label, value, some .code⟩

/-- A row with the name of a transaction. -/
def transaction (label value : String) : Row := ⟨label, value, some .transactionId⟩

end Row

/-- The rows of a Lightning payment. The fee concerns its sender alone. -/
def LightningPayment.rows (p : LightningPayment) (flow : Coded Flow) : List Row :=
  (if flow = .listed .outbound then
    (p.fee.map fun fee => Row.plain "Fee" fee.text).toList
  else [])
    ++ (p.expiry.map fun time => Row.plain "Expiry time" time.text).toList
    ++ (p.invoice.map (Row.code "Lightning invoice")).toList
    ++ [Row.plain "Invoice description" p.description, Row.code "Payment hash" p.paymentHash]
    ++ (p.preimage.map (Row.code "Payment preimage")).toList

/-- The rows of a payment on the chain. -/
def OnChainPayment.rows (p : OnChainPayment) : List Row :=
  [Row.transaction "Transaction ID" p.txid,
    Row.plain "Confirmations" (Decimal.text p.confirmations.toNat)]
    ++ (p.fee.map fun fee => Row.plain "Fee" fee.text).toList

namespace Entry

/-- The rows for the particulars of an entry's kind. -/
def detailRows (e : Entry) : List Row :=
  match e.payload with
  | .lightning p => p.rows e.flow
  | .trade orderId => [Row.code "Order" orderId]
  | .orderMatchingFee orderId paymentHash =>
    [Row.code "Order" orderId, Row.code "Payment hash" paymentHash]
  | .jitChannelOpenFee txid => [Row.transaction "Funding transaction ID" txid]
  | .onChain p => p.rows

/-- The row for a status that is not yet, or never was, the good end. -/
def statusRows (status : Coded Status) : List Row :=
  if status = .listed .confirmed then [] else [Row.plain "Status" status.name]

/-- All rows of an entry. -/
def historyRows (e : Entry) : List Row :=
  statusRows e.status ++ ⟨"When", e.timestamp.text, some .relativeTime⟩ :: e.detailRows

end Entry

end WalletLedger
