import WalletLedger.Proofs.Amounts
import WalletLedger.Proofs.Runs
import WalletLedger.Record

/-!
# Accepted records

`Record.toEntry` is a chain of checks. `Record.toEntry_eq_ok_iff` opens it: a record makes an entry
when each check finds a value, and the entry is put together from these values. What a chain lets
through is well formed (`Entry.WellFormed`, `Entry.wellFormed_of_toEntry`): listed codes, and
numbers that were signed ones.
-/

namespace WalletLedger

/-! ### Well-formed entries -/

/-- Fee and expiry have at most 63 bits, as signed numbers have, and no text is empty where it could
be absent. -/
structure LightningPayment.WellFormed (p : LightningPayment) : Prop where
  fee : ∀ fee, p.fee = some fee → fee.count.toNat ≤ 9223372036854775807
  expiry : ∀ time, p.expiry = some time → time.milliseconds.toNat ≤ 9223372036854775807
  invoice : p.invoice ≠ some ""
  preimage : p.preimage ≠ some ""

/-- The fee has at most 63 bits. -/
structure OnChainPayment.WellFormed (p : OnChainPayment) : Prop where
  fee : ∀ fee, p.fee = some fee → fee.units.toNat ≤ 9223372036854775807

/-- The particulars of a payment are well formed; those of the other kinds are texts as they are. -/
def Payload.WellFormed : Payload LightningPayment OnChainPayment → Prop
  | .lightning p => p.WellFormed
  | .onChain p => p.WellFormed
  | _ => True

/-- What holds of every entry that a record makes: flow and status are listed, time and amount have
at most 63 bits, and the particulars are well formed. -/
structure Entry.WellFormed (e : Entry) : Prop where
  flow : ∃ flow, e.flow = .listed flow
  status : ∃ status, e.status = .listed status
  timestamp : e.timestamp.milliseconds.toNat ≤ 9223372036854775807
  amount : e.amount.units.toNat ≤ 9223372036854775807
  payload : e.payload.WellFormed

/-! ### The parts of a record -/

/-- What is left of an optional number was a signed one and has at most 63 bits. -/
theorem le_of_countOrAbsent {n : Option Int64} {u : UInt64} (h : countOrAbsent n = some u) :
    u.toNat ≤ 9223372036854775807 := by
  obtain ⟨m, -, hm⟩ := Option.bind_eq_some_iff.1 h
  exact le_of_unsigned? hm

theorem textOrAbsent_ne (s : Option String) : textOrAbsent s ≠ some "" := by
  intro h
  have := (Option.filter_eq_some_iff.1 h).2
  simp at this

theorem LightningRecord.toPayment_wellFormed (r : LightningRecord) : r.toPayment.WellFormed where
  fee := by
    intro fee h
    obtain ⟨u, hu, rfl⟩ := Option.map_eq_some_iff.1 h
    exact le_of_countOrAbsent hu
  expiry := by
    intro time h
    obtain ⟨u, hu, rfl⟩ := Option.map_eq_some_iff.1 h
    exact le_of_countOrAbsent hu
  invoice := textOrAbsent_ne r.invoice
  preimage := textOrAbsent_ne r.preimage

theorem OnChainRecord.wellFormed_of_toPayment? {r : OnChainRecord} {p : OnChainPayment}
    (h : r.toPayment? = some p) : p.WellFormed where
  fee := by
    obtain ⟨confirmations, -, rfl⟩ := Option.map_eq_some_iff.1 h
    intro fee hfee
    obtain ⟨u, hu, rfl⟩ := Option.map_eq_some_iff.1 hfee
    exact le_of_countOrAbsent hu

/-- Particulars made from a record are well formed, whatever their kind. -/
theorem wellFormed_of_payload? {raw : Payload LightningRecord OnChainRecord}
    {payload : Payload LightningPayment OnChainPayment} (h : payload? raw = some payload) :
    payload.WellFormed := by
  cases raw with
  | lightning r =>
    cases h
    exact r.toPayment_wellFormed
  | trade orderId =>
    cases h
    trivial
  | orderMatchingFee orderId paymentHash =>
    cases h
    trivial
  | jitChannelOpenFee txid =>
    cases h
    trivial
  | onChain r =>
    obtain ⟨p, hp, rfl⟩ := Option.map_eq_some_iff.1 h
    exact OnChainRecord.wellFormed_of_toPayment? hp

namespace Record

/-! ### The chain of checks -/

theorem orReject_eq_ok_iff {α : Type} {reason : RecordError} {o : Option α} {a : α} :
    orReject reason o = .ok a ↔ o = some a := by
  cases o <;> simp [orReject]

/-- A record makes an entry when each check finds a value. -/
theorem toEntry_eq_ok_iff {r : Record} {e : Entry} :
    r.toEntry = .ok e ↔
      ∃ flow status milliseconds amount payload,
        Flow.table.value? r.flow = some flow ∧
        Status.table.value? r.status = some status ∧
        unsigned? r.timestamp = some milliseconds ∧
        Amount.ofUnits? r.amount = some amount ∧
        payload? r.payload = some payload ∧
        e = ⟨.listed flow, .listed status, ⟨milliseconds⟩, amount, payload⟩ := by
  simp only [toEntry, bind_eq_ok_iff, orReject_eq_ok_iff]
  constructor
  · rintro ⟨flow, hflow, status, hstatus, ms, hms, amount, hamount, payload, hpayload, ⟨⟩⟩
    exact ⟨flow, status, ms, amount, payload, hflow, hstatus, hms, hamount, hpayload, rfl⟩
  · rintro ⟨flow, status, ms, amount, payload, hflow, hstatus, hms, hamount, hpayload, rfl⟩
    exact ⟨flow, hflow, status, hstatus, ms, hms, amount, hamount, payload, hpayload, rfl⟩

end Record

/-- **What a record makes is well formed.** -/
theorem Entry.wellFormed_of_toEntry {r : Record} {e : Entry} (h : r.toEntry = .ok e) :
    e.WellFormed := by
  obtain ⟨flow, status, ms, amount, payload, -, -, hms, hamount, hpayload, rfl⟩ :=
    Record.toEntry_eq_ok_iff.1 h
  obtain ⟨u, hu, rfl⟩ := Option.map_eq_some_iff.1 hamount
  exact ⟨⟨flow, rfl⟩, ⟨status, rfl⟩, le_of_unsigned? hms, le_of_unsigned? hu,
    wellFormed_of_payload? hpayload⟩

end WalletLedger
