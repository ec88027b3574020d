import WalletLedger.CommandLine.Request
import WalletLedger.Proofs.Checks

/-!
# What the options describe

The options describe a catalog row (`Options.DescribesOffer`) or a record
(`Options.DescribesRecord`) if they say what stands in it. The readers of the command line answer
with the row and the record that are described, and with no other
(`Options.readCatalogRow_eq_ok_iff`, `Options.readRecord_eq_ok_iff`).
-/

namespace WalletLedger.CommandLine

theorem required_eq_ok_iff {α : Type} {name : String} {o : Option α} {a : α} :
    required name o = .ok a ↔ o = some a := by
  cases o <;> simp [required]

theorem orRefuse_eq_ok_iff {α : Type} {refusal : Refusal} {o : Option α} {a : α} :
    orRefuse refusal o = .ok a ↔ o = some a := by
  cases o <;> simp [orRefuse]

namespace Options

variable {o : Options}

/-! ### Offers -/

/-- The options describe an offer in the numbers of this row. -/
structure DescribesOffer (o : Options) (row : CatalogRow) : Prop where
  id : o.id = some row.id
  title : o.title = row.title
  tradeUpTo : o.tradeUpTo = some row.tradeUpTo
  minDeposit : o.minDeposit = some row.minDeposit
  maxDeposit : o.maxDeposit = some row.maxDeposit
  feePercentage : o.feePercentage = row.feePercentage
  minFee : o.minFee = row.minFee
  leverage : o.leverage = row.leverage

/-- The row that is read is the one that the options describe. -/
theorem readCatalogRow_eq_ok_iff {row : CatalogRow} :
    o.readCatalogRow = .ok row ↔ o.DescribesOffer row := by
  simp only [readCatalogRow, bind_eq_ok_iff, required_eq_ok_iff]
  constructor
  · rintro ⟨id, hid, trade, htrade, least, hleast, most, hmost, ⟨⟩⟩
    exact ⟨hid, rfl, htrade, hleast, hmost, rfl, rfl, rfl⟩
  · obtain ⟨id, title, trade, least, most, percentage, minFee, leverage⟩ := row
    rintro ⟨hid, rfl, htrade, hleast, hmost, rfl, rfl, rfl⟩
    exact ⟨id, hid, trade, htrade, least, hleast, most, hmost, rfl⟩

/-! ### Kinds -/

/-- The kind of entry that is named, if there is one of this name. -/
def kind? (o : Options) : Option Kind := o.kind.bind Kind.table.value?

theorem kind?_eq_some_iff {k : Kind} :
    o.kind? = some k ↔ ∃ name, o.kind = some name ∧ (name, k) ∈ Kind.table.rows := by
  have h : Kind.table.names.Nodup := by decide
  simp only [kind?, Option.bind_eq_some_iff, NameTable.value?_eq_some_iff_mem h]

/-- The options name the kind of these particulars and say the same about them. -/
def DescribesPayload (o : Options) : Payload LightningRecord OnChainRecord → Prop
  | .lightning r => o.kind = some "lightning_payment" ∧ o.feeMsats = r.feeMsats ∧
      o.expiry = r.expiry ∧ o.invoice = r.invoice ∧ o.description = r.description ∧
      o.paymentHash = some r.paymentHash ∧ o.preimage = r.preimage
  | .trade orderId => o.kind = some "trade" ∧ o.orderId = some orderId
  | .orderMatchingFee orderId paymentHash => o.kind = some "order_matching_fee" ∧
      o.orderId = some orderId ∧ o.paymentHash = some paymentHash
  | .jitChannelOpenFee txid => o.kind = some "jit_channel_open_fee" ∧ o.txid = some txid
  | .onChain r => o.kind = some "on_chain_payment" ∧ o.txid = some r.txid ∧
      o.confirmations = r.confirmations ∧ o.feeSats = r.feeSats

variable {raw : Payload LightningRecord OnChainRecord}

/-- Options that describe particulars name their kind. -/
theorem kind?_of_describesPayload (h : o.DescribesPayload raw) : o.kind? = some raw.kind := by
  rw [kind?_eq_some_iff]
  cases raw <;> exact ⟨_, h.1, by simp [Kind.table, Payload.kind]⟩

/-- What is read for the kind that the options name is what they describe, whichever of the five
kinds it is. -/
theorem describesPayload_of_readPayload {k : Kind} (hkind : o.kind? = some k)
    (h : o.readPayload k = .ok raw) : o.DescribesPayload raw := by
  obtain ⟨name, hname, hrow⟩ := kind?_eq_some_iff.1 hkind
  simp only [Kind.table, List.mem_cons, List.not_mem_nil, or_false, Prod.mk.injEq] at hrow
  rcases hrow with ⟨rfl, rfl⟩ | ⟨rfl, rfl⟩ | ⟨rfl, rfl⟩ | ⟨rfl, rfl⟩ | ⟨rfl, rfl⟩
  · obtain ⟨paymentHash, hhash, ⟨⟩⟩ := bind_eq_ok_iff.1 h
    exact ⟨hname, rfl, rfl, rfl, rfl, required_eq_ok_iff.1 hhash, rfl⟩
  · obtain ⟨orderId, horder, ⟨⟩⟩ := bind_eq_ok_iff.1 h
    exact ⟨hname, required_eq_ok_iff.1 horder⟩
  · obtain ⟨orderId, horder, h⟩ := bind_eq_ok_iff.1 h
    obtain ⟨paymentHash, hhash, ⟨⟩⟩ := bind_eq_ok_iff.1 h
    exact ⟨hname, required_eq_ok_iff.1 horder, required_eq_ok_iff.1 hhash⟩
  · obtain ⟨txid, htxid, ⟨⟩⟩ := bind_eq_ok_iff.1 h
    exact ⟨hname, required_eq_ok_iff.1 htxid⟩
  · obtain ⟨txid, htxid, ⟨⟩⟩ := bind_eq_ok_iff.1 h
    exact ⟨hname, required_eq_ok_iff.1 htxid, rfl, rfl⟩

theorem readPayload_of_describesPayload (h : o.DescribesPayload raw) :
    o.readPayload raw.kind = .ok raw := by
  cases raw with
  | lightning r =>
    obtain ⟨-, hfee, hexpiry, hinvoice, hdescription, hhash, hpreimage⟩ := h
    exact bind_eq_ok_iff.2 ⟨_, required_eq_ok_iff.2 hhash,
      by rw [hfee, hexpiry, hinvoice, hdescription, hpreimage]; rfl⟩
  | trade orderId => exact bind_eq_ok_iff.2 ⟨_, required_eq_ok_iff.2 h.2, rfl⟩
  | orderMatchingFee orderId paymentHash =>
    exact bind_eq_ok_iff.2 ⟨_, required_eq_ok_iff.2 h.2.1,
      bind_eq_ok_iff.2 ⟨_, required_eq_ok_iff.2 h.2.2, rfl⟩⟩
  | jitChannelOpenFee txid => exact bind_eq_ok_iff.2 ⟨_, required_eq_ok_iff.2 h.2, rfl⟩
  | onChain r =>
    obtain ⟨-, htxid, hconfirmations, hfee⟩ := h
    exact bind_eq_ok_iff.2 ⟨_, required_eq_ok_iff.2 htxid, by rw [hconfirmations, hfee]; rfl⟩

/-! ### Records -/

/-- The options say what stands in the record. -/
structure DescribesRecord (o : Options) (r : Record) : Prop where
  flow : o.flow = some r.flow
  status : o.status = some r.status
  timestamp : o.timestamp = r.timestamp
  amount : o.amount = some r.amount
  payload : o.DescribesPayload r.payload

/-- The record that is read is the one that the options describe. -/
theorem readRecord_eq_ok_iff {r : Record} : o.readRecord = .ok r ↔ o.DescribesRecord r := by
  simp only [readRecord, bind_eq_ok_iff, required_eq_ok_iff, orRefuse_eq_ok_iff]
  constructor
  · rintro ⟨flow, hflow, status, hstatus, amount, hamount, name, hname, kind, hkind, payload,
      hpayload, ⟨⟩⟩
    have hkind : o.kind? = some kind := Option.bind_eq_some_iff.2 ⟨name, hname, hkind⟩
    exact ⟨hflow, hstatus, rfl, hamount, describesPayload_of_readPayload hkind hpayload⟩
  · obtain ⟨flow, status, timestamp, amount, payload⟩ := r
    rintro ⟨hflow, hstatus, rfl, hamount, hpayload⟩
    obtain ⟨name, hname, hkind⟩ :=
      Option.bind_eq_some_iff.1 (kind?_of_describesPayload hpayload)
    exact ⟨flow, hflow, status, hstatus, amount, hamount, name, hname, _, hkind, payload,
      readPayload_of_describesPayload hpayload, rfl⟩

end Options

end WalletLedger.CommandLine
