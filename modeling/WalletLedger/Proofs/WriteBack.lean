import WalletLedger.Proofs.Acceptance
import WalletLedger.Proofs.NameTables

/-!
# Writing entries back as records

`Record.ofEntry` writes an entry back as a raw record. Read again, a well-formed entry comes back as
it was (`Record.toEntry_ofEntry`), and what is written back of the entry that a record makes is this
record without its malformed optionals (`Record.ofEntry_of_toEntry`). So the entries that records
make are the well-formed ones, and nothing but malformed optionals is lost on the way to them
(`Record.toEntry_inverts_ofEntry`).
-/

namespace WalletLedger

/-! ### Numbers and texts -/

/-- A word of at most 63 bits is the same number with a sign. -/
theorem toInt_toInt64 {u : UInt64} (h : u.toNat ≤ 9223372036854775807) :
    u.toInt64.toInt = (u.toNat : Int) := by
  have hlt : 2 * u.toBitVec.toNat < 18446744073709551616 := by
    have : u.toBitVec.toNat = u.toNat := rfl
    omega
  exact BitVec.toInt_eq_toNat_of_lt hlt

theorem unsigned?_toInt64 {u : UInt64} (h : u.toNat ≤ 9223372036854775807) :
    unsigned? u.toInt64 = some u := by
  rw [unsigned?_eq_some_iff, toInt_toInt64 h]

/-- A number that is not negative is written back as itself. -/
theorem toInt64_of_unsigned? {n : Int64} {u : UInt64} (h : unsigned? n = some u) :
    u.toInt64 = n := by
  rw [← Int64.toInt_inj, toInt_toInt64 (le_of_unsigned? h), unsigned?_eq_some_iff.1 h]

theorem confirmations_out_of_range_iff {n : Int64} :
    (n < 0 ∨ 4294967295 < n) ↔ ¬(0 ≤ n.toInt ∧ n.toInt ≤ 4294967295) := by
  have hmax : (4294967295 : Int64).toInt = 4294967295 := rfl
  rw [Int64.lt_iff_toInt_lt, Int64.lt_iff_toInt_lt, Int64.toInt_zero, hmax]
  omega

/-- A number of confirmations becomes the word that stands for the same number. -/
theorem confirmations?_eq_some_iff {n : Int64} {c : UInt32} :
    confirmations? n = some c ↔ (c.toNat : Int) = n.toInt := by
  have hc := c.toNat_lt
  unfold confirmations?
  by_cases h : n < 0 ∨ 4294967295 < n
  · rw [if_pos h]
    rw [confirmations_out_of_range_iff] at h
    constructor
    · rintro ⟨⟩
    · omega
  · rw [if_neg h]
    rw [confirmations_out_of_range_iff, Classical.not_not] at h
    have hword : (n.toUInt64.toNat : Int) = n.toInt := by
      rw [← unsigned?_eq_some_iff, unsigned?, if_neg (by simp [Int64.lt_iff_toInt_lt, h.1])]
    -- a number that fits in 32 bits is not changed by leaving out the others
    rw [Option.some.injEq, ← UInt32.toNat_inj, UInt64.toNat_toUInt32]
    omega

/-- An optional number without a negative one. -/
def withoutNegative (n : Option Int64) : Option Int64 := n.filter fun n => 0 ≤ n

/-- An optional text without an empty one. -/
def withoutEmpty (s : Option String) : Option String := s.filter fun s => s ≠ ""

theorem map_toInt64_countOrAbsent (n : Option Int64) :
    (countOrAbsent n).map UInt64.toInt64 = withoutNegative n := by
  cases n with
  | none => rfl
  | some n =>
    cases hn : unsigned? n with
    | none =>
      have hneg : ¬0 ≤ n := by
        rw [Int64.le_iff_toInt_le, Int.not_le]
        exact unsigned?_eq_none_iff.1 hn
      simp [countOrAbsent, withoutNegative, hn, Option.filter, hneg]
    | some u =>
      have hpos : 0 ≤ n := by
        rw [Int64.le_iff_toInt_le, ← unsigned?_eq_some_iff.1 hn]
        exact Int.natCast_nonneg _
      simp [countOrAbsent, withoutNegative, hn, Option.filter, hpos, toInt64_of_unsigned? hn]

/-- Optional counts of at most 63 bits are read again as they were written. -/
theorem map_countOrAbsent {α : Type} (mk : UInt64 → α) (count : α → UInt64)
    (hmk : ∀ x, mk (count x) = x) {o : Option α}
    (h : ∀ x, o = some x → (count x).toNat ≤ 9223372036854775807) :
    (countOrAbsent (o.map fun x => (count x).toInt64)).map mk = o := by
  cases o with
  | none => rfl
  | some x =>
    have hread : countOrAbsent (some (count x).toInt64) = some (count x) :=
      unsigned?_toInt64 (h x rfl)
    rw [Option.map_some, hread, Option.map_some, hmk]

theorem textOrAbsent_eq (s : Option String) : textOrAbsent s = withoutEmpty s := by
  cases s <;> simp [textOrAbsent, withoutEmpty, Option.filter]

theorem textOrAbsent_of_ne {s : Option String} (h : s ≠ some "") : textOrAbsent s = s := by
  cases s with
  | none => rfl
  | some text =>
    have hne : text ≠ "" := fun heq => h (congrArg some heq)
    simp [textOrAbsent, Option.filter, hne]

/-! ### Payloads -/

namespace LightningRecord

/-- The record without its malformed optionals. -/
def blanked (r : LightningRecord) : LightningRecord :=
  { r with
    feeMsats := withoutNegative r.feeMsats
    expiry := withoutNegative r.expiry
    invoice := withoutEmpty r.invoice
    preimage := withoutEmpty r.preimage }

theorem ofPayment_toPayment (r : LightningRecord) : ofPayment r.toPayment = r.blanked := by
  simp only [ofPayment, toPayment, blanked, Option.map_map, ← map_toInt64_countOrAbsent,
    ← textOrAbsent_eq]
  rfl

theorem toPayment_ofPayment {p : LightningPayment} (h : p.WellFormed) :
    (ofPayment p).toPayment = p := by
  have hfee := map_countOrAbsent Millisats.mk Millisats.count (fun _ => rfl) h.fee
  have hexpiry := map_countOrAbsent Timestamp.mk Timestamp.milliseconds (fun _ => rfl) h.expiry
  simp only [toPayment, ofPayment, hfee, hexpiry, textOrAbsent_of_ne h.invoice,
    textOrAbsent_of_ne h.preimage]

end LightningRecord

namespace OnChainRecord

/-- The record without its malformed optionals. -/
def blanked (r : OnChainRecord) : OnChainRecord := { r with feeSats := withoutNegative r.feeSats }

theorem ofPayment_of_toPayment? {r : OnChainRecord} {p : OnChainPayment}
    (h : r.toPayment? = some p) : ofPayment p = r.blanked := by
  obtain ⟨c, hc, rfl⟩ := Option.map_eq_some_iff.1 h
  have hconfirmations : c.toUInt64.toInt64 = r.confirmations := by
    have hlt := c.toNat_lt
    rw [← Int64.toInt_inj, toInt_toInt64 (by rw [UInt32.toNat_toUInt64]; omega),
      UInt32.toNat_toUInt64, confirmations?_eq_some_iff.1 hc]
  simp only [ofPayment, blanked, hconfirmations, Option.map_map, ← map_toInt64_countOrAbsent]
  rfl

/-- A payment on the chain comes back from its record. -/
theorem toPayment?_ofPayment {p : OnChainPayment} (h : p.WellFormed) :
    (ofPayment p).toPayment? = some p := by
  have hfee := map_countOrAbsent Amount.mk Amount.units (fun _ => rfl) h.fee
  have hconfirmations : confirmations? p.confirmations.toUInt64.toInt64 = some p.confirmations := by
    have hlt := p.confirmations.toNat_lt
    rw [confirmations?_eq_some_iff, toInt_toInt64 (by rw [UInt32.toNat_toUInt64]; omega),
      UInt32.toNat_toUInt64]
  simp only [toPayment?, ofPayment, hconfirmations, hfee, Option.map_some]

end OnChainRecord

/-- The payload without its malformed optionals. -/
def Payload.blanked :
    Payload LightningRecord OnChainRecord → Payload LightningRecord OnChainRecord
  | .lightning r => .lightning r.blanked
  | .onChain r => .onChain r.blanked
  | other => other

theorem ofPayload_of_payload? {raw : Payload LightningRecord OnChainRecord}
    {payload : Payload LightningPayment OnChainPayment} (h : payload? raw = some payload) :
    Record.ofPayload payload = raw.blanked := by
  cases raw with
  | lightning r =>
    cases h
    exact congrArg Payload.lightning r.ofPayment_toPayment
  | trade orderId =>
    cases h
    rfl
  | orderMatchingFee orderId paymentHash =>
    cases h
    rfl
  | jitChannelOpenFee txid =>
    cases h
    rfl
  | onChain r =>
    obtain ⟨p, hp, rfl⟩ := Option.map_eq_some_iff.1 h
    exact congrArg Payload.onChain (OnChainRecord.ofPayment_of_toPayment? hp)

theorem payload?_ofPayload {payload : Payload LightningPayment OnChainPayment}
    (h : payload.WellFormed) : payload? (Record.ofPayload payload) = some payload := by
  cases payload with
  | lightning p => rw [Record.ofPayload, payload?, LightningRecord.toPayment_ofPayment h]
  | trade orderId => rfl
  | orderMatchingFee orderId paymentHash => rfl
  | jitChannelOpenFee txid => rfl
  | onChain p =>
    rw [Record.ofPayload, payload?, OnChainRecord.toPayment?_ofPayment h, Option.map_some]

/-! ### Entries -/

namespace Record

/-- The record without its malformed optionals: negative fees and times of expiry, and empty
invoices and proofs of payment. -/
def blanked (r : Record) : Record := { r with payload := r.payload.blanked }

/-- What is written back is the record as far as it was read. -/
theorem ofEntry_of_toEntry {r : Record} {e : Entry} (h : r.toEntry = .ok e) :
    ofEntry e = r.blanked := by
  obtain ⟨flow, status, ms, amount, payload, hflow, hstatus, hms, hamount, hpayload, rfl⟩ :=
    toEntry_eq_ok_iff.1 h
  obtain ⟨u, hu, rfl⟩ := Option.map_eq_some_iff.1 hamount
  have hflowName : (Coded.listed flow).name = r.flow := Flow.value?_eq_some_iff.1 hflow
  have hstatusName : (Coded.listed status).name = r.status := Status.value?_eq_some_iff.1 hstatus
  simp only [ofEntry, blanked, hflowName, hstatusName, ofPayload_of_payload? hpayload,
    toInt64_of_unsigned? hms, toInt64_of_unsigned? hu]

/-- A well-formed entry is read again as it was written. -/
theorem toEntry_ofEntry {e : Entry} (h : e.WellFormed) : (ofEntry e).toEntry = .ok e := by
  obtain ⟨flow, hflow⟩ := h.flow
  obtain ⟨status, hstatus⟩ := h.status
  refine toEntry_eq_ok_iff.2 ⟨flow, status, e.timestamp.milliseconds, e.amount, e.payload,
    ?_, ?_, unsigned?_toInt64 h.timestamp, ?_, payload?_ofPayload h.payload, ?_⟩
  · rw [Flow.value?_eq_some_iff, ofEntry, hflow, Enumeration.name]
  · rw [Status.value?_eq_some_iff, ofEntry, hstatus, Enumeration.name]
  · rw [ofEntry, Amount.ofUnits?, unsigned?_toInt64 h.amount, Option.map_some]
  · rw [← hflow, ← hstatus]

/-- **Reading records inverts writing entries.** What a record makes is well formed; every
well-formed entry is what its own record makes; and of two records that make the same entry, one is
the other but for malformed optionals. -/
theorem toEntry_inverts_ofEntry :
    (∀ (r : Record) (e : Entry), r.toEntry = .ok e →
      e.WellFormed ∧ ∀ p, e.payload = .onChain p → p.confirmations.toNat ≤ 4294967295) ∧
    (∀ e : Entry, e.WellFormed → (ofEntry e).toEntry = .ok e) ∧
    ∀ (r s : Record) (e f : Entry), r.toEntry = .ok e → s.toEntry = .ok f →
      (e = f ↔ r.blanked = s.blanked) := by
  refine ⟨fun r e h => ⟨Entry.wellFormed_of_toEntry h, fun p _ => ?_⟩,
    fun e h => toEntry_ofEntry h, fun r s e f hr hs => ?_⟩
  · have := p.confirmations.toNat_lt
    omega
  · -- both entries are what their records are read as once more
    have he := toEntry_ofEntry (Entry.wellFormed_of_toEntry hr)
    have hf := toEntry_ofEntry (Entry.wellFormed_of_toEntry hs)
    rw [← ofEntry_of_toEntry hr, ← ofEntry_of_toEntry hs]
    constructor
    · rintro rfl
      rfl
    · intro heq
      rw [heq, hf] at he
      exact (Except.ok.inj he).symm

/-- Two records that differ in malformed optionals alone, with the latest time that is one. -/
theorem toEntry_inverts_ofEntry_spoiled :
    let r : Record := ⟨"Outbound", "Expired", 9223372036854775807, 3,
      .lightning ⟨some (-1), some 0, some "", "rent", "5ad1", none⟩⟩
    let s : Record := ⟨"Outbound", "Expired", 9223372036854775807, 3,
      .lightning ⟨none, some 0, none, "rent", "5ad1", some ""⟩⟩
    ∃ e, r.toEntry = .ok e ∧ s.toEntry = .ok e ∧ (ofEntry e).toEntry = .ok e := by
  intro r s
  have hblanked : r.blanked = s.blanked := by decide
  obtain ⟨e, hr⟩ : ∃ e, r.toEntry = .ok e := ⟨_, rfl⟩
  obtain ⟨f, hs⟩ : ∃ f, s.toEntry = .ok f := ⟨_, rfl⟩
  obtain ⟨hwf, hread, hsame⟩ := toEntry_inverts_ofEntry
  obtain rfl := (hsame r s e f hr hs).2 hblanked
  exact ⟨e, hr, hs, hread e (hwf r e hr).1⟩

end Record

end WalletLedger
