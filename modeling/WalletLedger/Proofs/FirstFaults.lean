import WalletLedger.Proofs.Checks
import WalletLedger.Proofs.Snapshots

/-!
# The first fault of a record

A record is accepted exactly if nothing is wrong with its required fields (`Record.IsSound`), and
otherwise refused for the first of its faults in the order of `Record.checks`
(`Record.refusal?_eq_first`). The entry of an accepted record keeps what stands in it
(`Entry.Keeps`), malformed optional fields apart, and no optional field has a say in whether it is
accepted (`Record.refusal?_withoutOptionals`). `Record.toEntry_first_fault` says all of this at
once.
-/

namespace WalletLedger

/-! ### What an entry keeps of its record -/

/-- The texts of the record are kept, and its optional fields unless they are malformed. -/
structure LightningPayment.Keeps (p : LightningPayment) (r : LightningRecord) : Prop where
  fee : p.fee.map (fun fee => (fee.count.toNat : Int)) =
    (withoutNegative r.feeMsats).map Int64.toInt
  expiry : p.expiry.map (fun time => (time.milliseconds.toNat : Int)) =
    (withoutNegative r.expiry).map Int64.toInt
  invoice : p.invoice = withoutEmpty r.invoice
  description : p.description = r.description
  paymentHash : p.paymentHash = r.paymentHash
  preimage : p.preimage = withoutEmpty r.preimage

/-- The transaction and its confirmations are kept, and the fee unless it is negative. -/
structure OnChainPayment.Keeps (p : OnChainPayment) (r : OnChainRecord) : Prop where
  txid : p.txid = r.txid
  confirmations : (p.confirmations.toNat : Int) = r.confirmations.toInt
  fee : p.fee.map (fun fee => (fee.units.toNat : Int)) =
    (withoutNegative r.feeSats).map Int64.toInt

/-- The kind is kept, and the particulars with it. -/
inductive Payload.Keeps :
    Payload LightningPayment OnChainPayment → Payload LightningRecord OnChainRecord → Prop where
  | lightning {p : LightningPayment} {r : LightningRecord} (h : p.Keeps r) :
    Keeps (.lightning p) (.lightning r)
  | trade (orderId : String) : Keeps (.trade orderId) (.trade orderId)
  | orderMatchingFee (orderId paymentHash : String) :
    Keeps (.orderMatchingFee orderId paymentHash) (.orderMatchingFee orderId paymentHash)
  | jitChannelOpenFee (txid : String) : Keeps (.jitChannelOpenFee txid) (.jitChannelOpenFee txid)
  | onChain {p : OnChainPayment} {r : OnChainRecord} (h : p.Keeps r) :
    Keeps (.onChain p) (.onChain r)

/-- The entry says what its record says: the same names, numbers and particulars. -/
structure Entry.Keeps (e : Entry) (r : Record) : Prop where
  kind : e.kind = r.payload.kind
  flow : ∃ flow, e.flow = .listed flow ∧ Enumeration.name flow = r.flow
  status : ∃ status, e.status = .listed status ∧ Enumeration.name status = r.status
  timestamp : (e.timestamp.milliseconds.toNat : Int) = r.timestamp.toInt
  amount : (e.amount.units.toNat : Int) = r.amount.toInt
  payload : e.payload.Keeps r.payload

theorem map_toNat_countOrAbsent (n : Option Int64) :
    (countOrAbsent n).map (fun u => (u.toNat : Int)) = (withoutNegative n).map Int64.toInt := by
  rw [← map_toInt64_countOrAbsent, Option.map_map]
  refine Option.map_congr fun u hu => ?_
  exact (toInt_toInt64 (le_of_countOrAbsent hu)).symm

theorem LightningRecord.keeps_toPayment (r : LightningRecord) : r.toPayment.Keeps r where
  fee := by
    rw [← map_toNat_countOrAbsent, toPayment, Option.map_map]
    rfl
  expiry := by
    rw [← map_toNat_countOrAbsent, toPayment, Option.map_map]
    rfl
  invoice := textOrAbsent_eq r.invoice
  description := rfl
  paymentHash := rfl
  preimage := textOrAbsent_eq r.preimage

theorem OnChainRecord.keeps_of_toPayment? {r : OnChainRecord} {p : OnChainPayment}
    (h : r.toPayment? = some p) : p.Keeps r := by
  obtain ⟨confirmations, hconfirmations, rfl⟩ := Option.map_eq_some_iff.1 h
  refine ⟨rfl, confirmations?_eq_some_iff.1 hconfirmations, ?_⟩
  rw [← map_toNat_countOrAbsent, Option.map_map]
  rfl

/-- Particulars keep what their record says, whatever their kind. -/
theorem Payload.keeps_of_payload? {raw : Payload LightningRecord OnChainRecord}
    {payload : Payload LightningPayment OnChainPayment} (h : payload? raw = some payload) :
    payload.Keeps raw := by
  cases raw with
  | lightning r =>
    cases h
    exact .lightning r.keeps_toPayment
  | trade orderId =>
    cases h
    exact .trade orderId
  | orderMatchingFee orderId paymentHash =>
    cases h
    exact .orderMatchingFee orderId paymentHash
  | jitChannelOpenFee txid =>
    cases h
    exact .jitChannelOpenFee txid
  | onChain r =>
    obtain ⟨p, hp, rfl⟩ := Option.map_eq_some_iff.1 h
    exact .onChain (OnChainRecord.keeps_of_toPayment? hp)

theorem Payload.Keeps.kind_eq {payload : Payload LightningPayment OnChainPayment}
    {raw : Payload LightningRecord OnChainRecord} (h : payload.Keeps raw) :
    payload.kind = raw.kind := by
  cases h <;> rfl

/-- An entry keeps what its record says, but for malformed optional fields. -/
theorem Entry.keeps_of_toEntry {r : Record} {e : Entry} (h : r.toEntry = .ok e) : e.Keeps r := by
  obtain ⟨flow, status, ms, amount, payload, hflow, hstatus, hms, hamount, hpayload, rfl⟩ :=
    Record.toEntry_eq_ok_iff.1 h
  obtain ⟨units, hunits, rfl⟩ := Option.map_eq_some_iff.1 hamount
  have hkeeps := Payload.keeps_of_payload? hpayload
  exact {
    kind := hkeeps.kind_eq
    flow := ⟨flow, rfl, Flow.value?_eq_some_iff.1 hflow⟩
    status := ⟨status, rfl, Status.value?_eq_some_iff.1 hstatus⟩
    timestamp := unsigned?_eq_some_iff.1 hms
    amount := unsigned?_eq_some_iff.1 hunits
    payload := hkeeps }

namespace Record

/-! ### Faults -/

/-- Nothing is wrong with the required fields of a record. -/
structure IsSound (r : Record) : Prop where
  flow : r.flow = "Inbound" ∨ r.flow = "Outbound"
  status : r.status = "Pending" ∨ r.status = "Confirmed" ∨ r.status = "Expired" ∨
    r.status = "Failed"
  timestamp : 0 ≤ r.timestamp.toInt
  amount : 0 ≤ r.amount.toInt
  confirmations : ∀ p, r.payload = .onChain p →
    0 ≤ p.confirmations.toInt ∧ p.confirmations.toInt ≤ 4294967295

theorem confirmationsFit_iff {raw : Payload LightningRecord OnChainRecord} :
    confirmationsFit raw ↔ ∀ p, raw = .onChain p →
      0 ≤ p.confirmations.toInt ∧ p.confirmations.toInt ≤ 4294967295 := by
  cases raw <;> simp [confirmationsFit]

/-- A record is sound if all its checks hold. -/
theorem isSound_iff {r : Record} : r.IsSound ↔ ∀ c ∈ r.checks, c.holds := by
  have hflow : r.flow ∈ Flow.table.names ↔ r.flow = "Inbound" ∨ r.flow = "Outbound" := by
    simp [NameTable.names, Flow.table]
  have hstatus : r.status ∈ Status.table.names ↔ r.status = "Pending" ∨ r.status = "Confirmed" ∨
      r.status = "Expired" ∨ r.status = "Failed" := by
    simp [NameTable.names, Status.table]
  simp only [checks, List.forall_mem_cons, decide_eq_true_eq, hflow, hstatus, confirmationsFit_iff]
  constructor
  · intro h
    exact ⟨h.flow, h.status, h.timestamp, h.amount, h.confirmations,
      fun _ hc => absurd hc List.not_mem_nil⟩
  · rintro ⟨flow, status, timestamp, amount, confirmations, -⟩
    exact ⟨flow, status, timestamp, amount, confirmations⟩

/-- A record is refused for the first thing that is wrong with it. -/
theorem refusal?_eq_first (r : Record) : r.refusal? = Check.first r.checks := by
  have h := r.follows_toEntry
  unfold refusal?
  cases hr : r.toEntry with
  | ok e =>
    rw [hr, Follows.ok_iff] at h
    exact h.symm
  | error reason =>
    rw [hr, Follows.error_iff] at h
    exact h.symm

/-! ### Optional fields -/

/-- The payload without any of its optional fields. -/
def requiredPart : Payload LightningRecord OnChainRecord → Payload LightningRecord OnChainRecord
  | .lightning r =>
    .lightning { r with feeMsats := none, expiry := none, invoice := none, preimage := none }
  | .onChain r => .onChain { r with feeSats := none }
  | other => other

/-- The record without any of its optional fields. -/
def withoutOptionals (r : Record) : Record := { r with payload := requiredPart r.payload }

/-- Optional fields have no say in whether a record is refused, and why. -/
theorem refusal?_withoutOptionals (r : Record) : r.withoutOptionals.refusal? = r.refusal? := by
  have hfit : confirmationsFit (requiredPart r.payload) = confirmationsFit r.payload := by
    cases r.payload <;> rfl
  rw [refusal?_eq_first, refusal?_eq_first, checks, checks, withoutOptionals, hfit]

/-- **A record is refused for its first fault.** It makes an entry exactly if its flow and status
are known names, its time and amount are not negative, and the confirmations of a payment on the
chain are a number of 32 bits; otherwise the reason given is that of the first of these that fails.
The entry keeps what stands in the record but for malformed optional fields, and the optional
fields, malformed or not, have no say in whether the record is refused. -/
theorem toEntry_first_fault (r : Record) :
    ((∃ e, r.toEntry = .ok e) ↔ r.IsSound) ∧
    (∀ reason, r.toEntry = .error reason ↔ Check.first r.checks = some reason) ∧
    (∀ e, r.toEntry = .ok e → e.Keeps r) ∧
    r.withoutOptionals.refusal? = r.refusal? := by
  refine ⟨?_, fun reason => ?_, fun e => Entry.keeps_of_toEntry, r.refusal?_withoutOptionals⟩
  · rw [r.follows_toEntry.exists_eq_ok_iff, Check.first_eq_none_iff, isSound_iff]
  · rw [← refusal?_eq_first, refusal?_eq_some_iff]

/-- As many confirmations as fit and a negative fee make an entry without a fee; one more, and a
negative amount besides, is refused for the amount. -/
theorem toEntry_first_fault_confirmations :
    let r : Record := ⟨"Inbound", "Confirmed", 0, 9223372036854775807,
      .onChain ⟨"f00d", 4294967295, some (-1)⟩⟩
    let s : Record := { r with amount := -1, payload := .onChain ⟨"f00d", 4294967296, none⟩ }
    (∃ e, r.toEntry = .ok e ∧ e.Keeps r) ∧ s.toEntry = .error .invalidAmount := by
  intro r s
  obtain ⟨haccepted, -, hkeeps, -⟩ := toEntry_first_fault r
  obtain ⟨-, hrefused, -, -⟩ := toEntry_first_fault s
  obtain ⟨e, he⟩ := haccepted.2 (isSound_iff.2 (by decide))
  exact ⟨⟨e, he, hkeeps e he⟩, (hrefused _).2 (by decide)⟩

end Record

end WalletLedger
