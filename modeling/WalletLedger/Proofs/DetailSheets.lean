import WalletLedger.Proofs.Amounts
import WalletLedger.Proofs.MillisatTexts
import WalletLedger.Proofs.NameTables
import WalletLedger.Proofs.TimestampTexts
import WalletLedger.Sheet

/-!
# What the detail sheet shows

The rows of an entry are found by their labels (`Row.find?`). The labels tell the kind of an entry
(`Entry.kindOf_detailRows`), and what stands under them tells all that is meant to be shown of it
(`Entry.shown`): its status, its time and the time of expiry to the second, and the particulars of
its kind, of which only the Lightning fee of a payment into the wallet is left away. So the sheets
of two entries are the same exactly if the entries are the same in these things
(`Entry.historyRows_eq_iff`).
-/

namespace WalletLedger

/-! ### What is meant to be shown -/

/-- The point in time at the beginning of its second. -/
def Timestamp.toFullSecond (t : Timestamp) : Timestamp := ⟨t.milliseconds / 1000 * 1000⟩

/-- A payment as it is meant to be shown: the expiry to the second, and no fee if another has paid
it. -/
def LightningPayment.shown (p : LightningPayment) (flow : Coded Flow) : LightningPayment :=
  { p with
    fee := if flow = .listed .inbound then none else p.fee
    expiry := p.expiry.map Timestamp.toFullSecond }

/-- The particulars of an entry as they are meant to be shown. -/
def Entry.shown (e : Entry) : Payload LightningPayment OnChainPayment :=
  match e.payload with
  | .lightning p => .lightning (p.shown e.flow)
  | other => other

theorem Entry.kind_shown (e : Entry) : e.shown.kind = e.kind := by
  unfold shown kind
  cases e.payload <;> rfl

theorem Entry.kind_eq_of_shown {e f : Entry} (h : e.shown = f.shown) : e.kind = f.kind := by
  rw [← kind_shown, h, kind_shown]

namespace Timestamp

theorem toNat_toFullSecond (t : Timestamp) :
    t.toFullSecond.milliseconds.toNat = t.seconds * 1000 := by
  have hlt := t.milliseconds.toNat_lt
  rw [toFullSecond, UInt64.toNat_mul, UInt64.toNat_div]
  change t.milliseconds.toNat / 1000 * 1000 % _ = t.milliseconds.toNat / 1000 * 1000
  omega

theorem seconds_toFullSecond (t : Timestamp) : t.toFullSecond.seconds = t.seconds := by
  rw [seconds, toNat_toFullSecond, Nat.mul_div_cancel _ (by decide)]

/-- Two times have the same full second if they fall in the same second. -/
theorem toFullSecond_eq_iff {t u : Timestamp} :
    t.toFullSecond = u.toFullSecond ↔ t.seconds = u.seconds := by
  constructor
  · intro h
    rw [← seconds_toFullSecond, h, seconds_toFullSecond]
  · intro h
    have hsame := t.toNat_toFullSecond
    rw [h, ← toNat_toFullSecond, UInt64.toNat_inj] at hsame
    exact congrArg mk hsame

theorem text_toFullSecond (t : Timestamp) : t.toFullSecond.text = t.text :=
  text_eq_iff.2 t.seconds_toFullSecond

/-- The text of a time tells its second and no more, and an absent time from any other. -/
theorem map_text_eq_iff {o o' : Option Timestamp} :
    o.map text = o'.map text ↔ o.map toFullSecond = o'.map toFullSecond := by
  cases o <;> cases o' <;> simp [text_eq_iff, toFullSecond_eq_iff]

end Timestamp

/-! ### Rows by their labels -/

namespace Row

/-- The value of the first row with this label. -/
def find? (label : String) (rows : List Row) : Option String :=
  (rows.find? fun r => r.label == label).map Row.value

variable {label : String}

theorem find?_nil : find? label [] = none := rfl

theorem find?_append (rows others : List Row) :
    find? label (rows ++ others) = (find? label rows).or (find? label others) := by
  rw [find?, List.find?_append, Option.map_or]
  rfl

theorem find?_cons (r : Row) (rows : List Row) :
    find? label (r :: rows) = if r.label = label then some r.value else find? label rows := by
  unfold find?
  by_cases h : r.label = label <;> simp [h]

/-- An optional row is found under its label if it is there. -/
theorem find?_toList {α : Type} (own : String) (text : α → String) (hint : Option Hint)
    (o : Option α) :
    find? label (o.map fun a => ⟨own, text a, hint⟩).toList =
      if own = label then o.map text else none := by
  cases o with
  | none => simp [find?_nil]
  | some a => rw [Option.map_some, Option.toList_some, find?_cons, find?_nil, Option.map_some]

theorem find?_toList_code (own : String) (o : Option String) :
    find? label (o.map (code own)).toList = if own = label then o else none := by
  have h : find? label (o.map (code own)).toList = if own = label then o.map id else none :=
    find?_toList own id (some .code) o
  rwa [Option.map_id, id] at h

/-- The kind whose rows have these labels. -/
def kindOf (rows : List Row) : Kind :=
  if (find? "Invoice description" rows).isSome then .lightningPayment
  else if (find? "Transaction ID" rows).isSome then .onChainPayment
  else if (find? "Funding transaction ID" rows).isSome then .jitChannelOpenFee
  else if (find? "Payment hash" rows).isSome then .orderMatchingFee
  else .trade

end Row

namespace LightningPayment

variable {p q : LightningPayment} {flow flow' : Coded Flow}

/-- What stands under the labels of a Lightning payment. -/
theorem find?_rows (p : LightningPayment) (flow : Coded Flow) :
    Row.find? "Fee" (p.rows flow) =
      (if flow = .listed .outbound then p.fee.map Millisats.text else none) ∧
    Row.find? "Expiry time" (p.rows flow) = p.expiry.map Timestamp.text ∧
    Row.find? "Lightning invoice" (p.rows flow) = p.invoice ∧
    Row.find? "Invoice description" (p.rows flow) = some p.description ∧
    Row.find? "Payment hash" (p.rows flow) = some p.paymentHash ∧
    Row.find? "Payment preimage" (p.rows flow) = p.preimage := by
  unfold rows
  -- no label stands on two rows, so each is found past the optional rows before it
  split <;>
    simp [Row.find?_append, Row.find?_toList, Row.find?_toList_code, Row.find?_cons, Row.plain,
      Row.code]

/-- The rows are those of what is meant to be shown of the payment. -/
theorem rows_eq_rows_shown (h : ∃ f, flow = .listed f) :
    p.rows flow = (p.shown flow).rows (.listed .outbound) := by
  obtain ⟨flow, rfl⟩ := h
  cases flow <;> simp [rows, shown, Function.comp_def, Timestamp.text_toFullSecond]

/-- The fee is shown to the sender alone. -/
theorem map_text_fee_shown (h : ∃ f, flow = .listed f) :
    (p.shown flow).fee.map Millisats.text =
      if flow = .listed .outbound then p.fee.map Millisats.text else none := by
  obtain ⟨flow, rfl⟩ := h
  cases flow <;> simp [shown]

/-- The rows of a Lightning payment tell all of it that is meant to be shown. -/
theorem rows_eq_iff (h : ∃ f, flow = .listed f) (h' : ∃ f, flow' = .listed f) :
    p.rows flow = q.rows flow' ↔ p.shown flow = q.shown flow' := by
  constructor
  · intro hrows
    obtain ⟨hfee, hexpiry, hinvoice, hdescription, hhash, hpreimage⟩ := p.find?_rows flow
    obtain ⟨hfee', hexpiry', hinvoice', hdescription', hhash', hpreimage'⟩ := q.find?_rows flow'
    rw [hrows] at hfee hexpiry hinvoice hdescription hhash hpreimage
    have hshownFee : (p.shown flow).fee = (q.shown flow').fee := by
      apply Option.map_injective fun _ _ => Millisats.text_inj.1
      rw [map_text_fee_shown h, map_text_fee_shown h', ← hfee, hfee']
    have hshownExpiry : (p.shown flow).expiry = (q.shown flow').expiry :=
      Timestamp.map_text_eq_iff.1 (hexpiry.symm.trans hexpiry')
    simp only [shown, mk.injEq]
    exact ⟨hshownFee, hshownExpiry, hinvoice.symm.trans hinvoice',
      Option.some.inj (hdescription.symm.trans hdescription'),
      Option.some.inj (hhash.symm.trans hhash'), hpreimage.symm.trans hpreimage'⟩
  · intro hshown
    rw [rows_eq_rows_shown h, rows_eq_rows_shown h', hshown]

end LightningPayment

theorem Amount.text_inj {a b : Amount} : a.text = b.text ↔ a = b := by
  rw [text, text, String.append_left_inj, Decimal.text_inj, Amount.eq_iff_toNat_eq]

theorem OnChainPayment.rows_eq_iff {p q : OnChainPayment} : p.rows = q.rows ↔ p = q := by
  obtain ⟨txid, confirmations, fee⟩ := p
  obtain ⟨txid', confirmations', fee'⟩ := q
  cases fee <;> cases fee' <;>
    simp [rows, Row.transaction, Row.plain, Decimal.text_inj, UInt32.toNat_inj, Amount.text_inj]

namespace Entry

/-- The labels of the rows tell the kind. -/
theorem kindOf_detailRows (e : Entry) : Row.kindOf e.detailRows = e.kind := by
  unfold kind detailRows
  cases e.payload with
  | lightning p =>
    obtain ⟨-, -, -, hdescription, -, -⟩ := p.find?_rows e.flow
    exact if_pos (congrArg Option.isSome hdescription)
  | trade orderId => rfl
  | orderMatchingFee orderId paymentHash => rfl
  | jitChannelOpenFee txid => rfl
  | onChain p =>
    obtain ⟨txid, confirmations, fee⟩ := p
    cases fee <;> rfl

/-- The detail rows of entries of one kind. -/
theorem detailRows_eq_iff_of_kind {e f : Entry} (hkind : e.kind = f.kind)
    (he : ∃ flow, e.flow = .listed flow) (hf : ∃ flow, f.flow = .listed flow) :
    e.detailRows = f.detailRows ↔ e.shown = f.shown := by
  cases hp : e.payload <;> cases hq : f.payload <;>
    simp only [kind, hp, hq, Payload.kind, reduceCtorEq] at hkind
  -- the payloads are of one kind
  case lightning.lightning p q =>
    simp only [detailRows, shown, hp, hq, Payload.lightning.injEq]
    exact LightningPayment.rows_eq_iff he hf
  case trade.trade => simp [detailRows, shown, hp, hq, Row.code]
  case orderMatchingFee.orderMatchingFee => simp [detailRows, shown, hp, hq, Row.code]
  case jitChannelOpenFee.jitChannelOpenFee => simp [detailRows, shown, hp, hq, Row.transaction]
  case onChain.onChain p q =>
    simp only [detailRows, shown, hp, hq, Payload.onChain.injEq]
    exact OnChainPayment.rows_eq_iff

/-- The rows of its kind tell all of an entry that is meant to be shown, but for status and time. -/
theorem detailRows_eq_iff {e f : Entry} (he : ∃ flow, e.flow = .listed flow)
    (hf : ∃ flow, f.flow = .listed flow) : e.detailRows = f.detailRows ↔ e.shown = f.shown := by
  by_cases hkind : e.kind = f.kind
  · exact detailRows_eq_iff_of_kind hkind he hf
  · constructor
    · intro h
      exact absurd (by rw [← kindOf_detailRows, h, kindOf_detailRows]) hkind
    · intro h
      exact absurd (kind_eq_of_shown h) hkind

theorem statusRows_append_eq_iff {s s' : Status} {time time' : String} {hint : Option Hint}
    {rows rows' : List Row} :
    statusRows (.listed s) ++ ⟨"When", time, hint⟩ :: rows =
        statusRows (.listed s') ++ ⟨"When", time', hint⟩ :: rows' ↔
      s = s' ∧ time = time' ∧ rows = rows' := by
  have hname : (Coded.listed s).name = (Coded.listed s').name ↔ s = s' := Status.name_inj
  unfold statusRows
  by_cases hs : s = .confirmed <;> by_cases hs' : s' = .confirmed
  · simp [hs, hs']
  · simp [hs, hs', Ne.symm hs', Row.plain]
  · simp [hs, hs', Row.plain]
  · simp [hs, hs', Row.plain, hname]

/-- The flow and the status are values of their enumerations. -/
structure IsListed (e : Entry) : Prop where
  flow : ∃ flow, e.flow = .listed flow
  status : ∃ status, e.status = .listed status

/-- **The sheet hides what it is meant to hide and nothing else.** Where flows and statuses are
values of their enumerations, two entries have the same rows exactly if they have the same status,
second, kind and shown particulars; and so the rows of two kinds differ, an absent text differs from
an empty one, and the Lightning fee of a payment into the wallet changes no row. -/
theorem historyRows_eq_iff {e f : Entry} (he : e.IsListed) (hf : f.IsListed) :
    (e.historyRows = f.historyRows ↔
      e.status = f.status ∧
        e.timestamp.milliseconds.toNat / 1000 = f.timestamp.milliseconds.toNat / 1000 ∧
        e.kind = f.kind ∧ e.shown = f.shown) ∧
    (e.kind ≠ f.kind → e.historyRows ≠ f.historyRows) ∧
    (∀ p q, e.payload = .lightning p → f.payload = .lightning q →
      p.invoice = none ∧ q.invoice = some "" ∨ p.preimage = none ∧ q.preimage = some "" →
      e.historyRows ≠ f.historyRows) ∧
    (e.flow = .listed .inbound → ∀ p fee, e.payload = .lightning p →
      historyRows { e with payload := .lightning { p with fee := fee } } = e.historyRows) := by
  have hsame : e.historyRows = f.historyRows ↔ e.status = f.status ∧
      e.timestamp.seconds = f.timestamp.seconds ∧ e.kind = f.kind ∧ e.shown = f.shown := by
    obtain ⟨s, hs⟩ := he.status
    obtain ⟨s', hs'⟩ := hf.status
    rw [historyRows, historyRows, hs, hs', statusRows_append_eq_iff, Timestamp.text_eq_iff,
      detailRows_eq_iff he.flow hf.flow, Coded.listed.injEq, and_iff_right_of_imp kind_eq_of_shown]
  refine ⟨hsame, fun hkind h => hkind (hsame.1 h).2.2.1, ?_, ?_⟩
  · intro p q hp hq habsent h
    obtain ⟨-, -, -, hshown⟩ := hsame.1 h
    simp only [shown, hp, hq, Payload.lightning.injEq] at hshown
    have hinvoice := congrArg LightningPayment.invoice hshown
    have hpreimage := congrArg LightningPayment.preimage hshown
    rcases habsent with ⟨hnone, hempty⟩ | ⟨hnone, hempty⟩ <;>
      simp [LightningPayment.shown, hnone, hempty] at hinvoice hpreimage
  · intro hinbound p fee hp
    simp [historyRows, detailRows, hp, hinbound, LightningPayment.rows]

/-- Payments into the wallet and out of it with the same rows, since the fee of the first is hidden
and their times fall in the same seconds. With an empty invoice the second has other rows. -/
theorem historyRows_eq_iff_hidden_fee :
    let p : LightningPayment := ⟨some ⟨1010⟩, some ⟨2999⟩, none, "coffee", "b7", none⟩
    let q : LightningPayment := ⟨none, some ⟨2000⟩, none, "coffee", "b7", none⟩
    let e : Entry := ⟨.listed .inbound, .listed .pending, ⟨1500⟩, ⟨7⟩, .lightning p⟩
    let f : Entry := ⟨.listed .outbound, .listed .pending, ⟨1999⟩, ⟨8⟩, .lightning q⟩
    let g : Entry := { f with payload := .lightning { q with invoice := some "" } }
    e.IsListed ∧ f.IsListed ∧ g.IsListed ∧
      e.historyRows = f.historyRows ∧ f.historyRows ≠ g.historyRows := by
  intro p q e f g
  have he : e.IsListed := ⟨⟨_, rfl⟩, ⟨_, rfl⟩⟩
  have hf : f.IsListed := ⟨⟨_, rfl⟩, ⟨_, rfl⟩⟩
  have hg : g.IsListed := ⟨⟨_, rfl⟩, ⟨_, rfl⟩⟩
  obtain ⟨hsame, -⟩ := historyRows_eq_iff he hf
  obtain ⟨-, -, habsent, -⟩ := historyRows_eq_iff hf hg
  exact ⟨he, hf, hg, hsame.2 (by decide), habsent _ _ rfl rfl (.inl ⟨rfl, rfl⟩)⟩

end Entry

end WalletLedger
