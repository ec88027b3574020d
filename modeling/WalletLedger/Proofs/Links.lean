import WalletLedger.Proofs.Replies

/-!
# Links to the explorer

An entry has at most one transaction to link to (`Entry.transaction?`), and the link is the only
part of its lines that depends on the network: without a transaction the lines are the same for
every network (`exists_entryText_of_no_transaction`), and with one they are the same around its page
(`exists_entryText_of_transaction`). The page of a transaction is the same on two networks exactly
if neither leaves a trace in the path (`Explorer.page_eq_iff`).
-/

namespace WalletLedger

namespace Explorer

/-- The pages of the network stand at the root of the explorer. -/
def IsAtRoot (network : Network) : Prop := network = .mainnet ∨ network = .regtest

instance (network : Network) : Decidable (IsAtRoot network) :=
  inferInstanceAs (Decidable (_ ∨ _))

theorem networkPath_eq_iff {n m : Network} :
    networkPath n = networkPath m ↔ n = m ∨ IsAtRoot n ∧ IsAtRoot m := by
  cases n <;> cases m <;> decide

theorem page_eq_iff {n m : Network} {txid : String} :
    page n txid = page m txid ↔ n = m ∨ IsAtRoot n ∧ IsAtRoot m := by
  unfold page
  rw [String.append_left_inj, String.append_left_inj, String.append_right_inj]
  exact networkPath_eq_iff

end Explorer

/-! ### The transaction of an entry -/

namespace Entry

/-- The transaction that an entry links to. -/
def transaction? (e : Entry) : Option String :=
  match e.payload with
  | .jitChannelOpenFee txid => some txid
  | .onChain p => some p.txid
  | _ => none

/-- None of the rows has a link. -/
def Unlinked (rows : List Row) : Prop := ∀ r ∈ rows, r.hint ≠ some .transactionId

theorem unlinked_statusRows (status : Coded Status) : Unlinked (statusRows status) := by
  unfold statusRows Unlinked
  split <;> simp [Row.plain]

theorem unlinked_lightning (p : LightningPayment) (flow : Coded Flow) : Unlinked (p.rows flow) := by
  intro r hr
  simp only [LightningPayment.rows, List.mem_append, Option.mem_toList, Option.map_eq_some_iff,
    List.mem_cons, List.not_mem_nil, or_false] at hr
  rcases hr with (((hfee | ⟨time, -, rfl⟩) | ⟨invoice, -, rfl⟩) | rfl | rfl) | ⟨proof, -, rfl⟩
  · split at hfee
    · obtain ⟨fee, -, rfl⟩ := by simpa using hfee
      simp [Row.plain]
    · simp at hfee
  all_goals simp [Row.plain, Row.code]

/-- Without a transaction there is no row with a link. -/
theorem unlinked_historyRows {e : Entry} (h : e.transaction? = none) : Unlinked e.historyRows := by
  have hdetail : Unlinked e.detailRows := by
    unfold transaction? at h
    unfold detailRows
    cases hp : e.payload with
    | lightning p => exact unlinked_lightning p e.flow
    | trade orderId => simp [Unlinked, Row.code]
    | orderMatchingFee orderId paymentHash => simp [Unlinked, Row.code]
    | jitChannelOpenFee txid => simp [hp] at h
    | onChain p => simp [hp] at h
  intro r hr
  rcases List.mem_append.1 hr with hr | hr
  · exact unlinked_statusRows e.status r hr
  · rcases List.mem_cons.1 hr with rfl | hr
    · simp
    · exact hdetail r hr

/-- With a transaction one row has the link, and it is that of the transaction. -/
theorem exists_historyRows_eq {e : Entry} {txid : String} (h : e.transaction? = some txid) :
    ∃ before label after, e.historyRows = before ++ Row.transaction label txid :: after ∧
      Unlinked before ∧ Unlinked after := by
  have hdetail : ∃ label after, e.detailRows = Row.transaction label txid :: after ∧
      Unlinked after := by
    unfold transaction? at h
    unfold detailRows
    cases hp : e.payload with
    | jitChannelOpenFee id =>
      simp only [hp, Option.some.injEq] at h
      exact ⟨"Funding transaction ID", [], by rw [h], by simp [Unlinked]⟩
    | onChain p =>
      simp only [hp, Option.some.injEq] at h
      refine ⟨"Transaction ID", _, by rw [← h]; rfl, ?_⟩
      simp [Unlinked, Row.plain, or_imp, forall_and]
    | lightning p => simp [hp] at h
    | trade orderId => simp [hp] at h
    | orderMatchingFee orderId paymentHash => simp [hp] at h
  obtain ⟨label, after, hrows, hafter⟩ := hdetail
  refine ⟨statusRows e.status ++ [⟨"When", e.timestamp.text, some .relativeTime⟩], label, after,
    by rw [historyRows, hrows]; simp, ?_, hafter⟩
  intro r hr
  rcases List.mem_append.1 hr with hr | hr
  · exact unlinked_statusRows e.status r hr
  · simp_all

end Entry

/-! ### The lines of an entry -/

namespace Row

theorem lines_of_unlinked {rows : List Row} (h : Entry.Unlinked rows) (n m : Network) :
    lines n rows = lines m rows := by
  induction rows with
  | nil => rfl
  | cons r rest ih =>
    obtain ⟨hr, hrest⟩ := List.forall_mem_cons.1 h
    rw [lines, lines, ih hrest, line, line, if_neg hr, if_neg hr]

end Row

namespace CommandLine

/-- Only the rows of an entry depend on the network. -/
theorem exists_entryText_eq {e : Entry} (h : e.WellFormed) :
    ∃ head, ∀ network, entryText network e =
      .ok (head ++ Row.lines network e.historyRows) := by
  obtain ⟨c, hc⟩ := Movement.exists_classify_eq_ok h.flow h.status
  exact ⟨_, entryText_eq h hc⟩

/-- **Without a transaction the lines are those of any network.** -/
theorem exists_entryText_of_no_transaction {e : Entry} (h : e.WellFormed)
    (hnone : e.transaction? = none) : ∃ text, ∀ network, entryText network e = .ok text := by
  obtain ⟨head, hhead⟩ := exists_entryText_eq h
  refine ⟨head ++ Row.lines .mainnet e.historyRows, fun network => ?_⟩
  rw [hhead, Row.lines_of_unlinked (Entry.unlinked_historyRows hnone) network .mainnet]

/-- **With a transaction the lines are those of any network around its page.** -/
theorem exists_entryText_of_transaction {e : Entry} {txid : String} (h : e.WellFormed)
    (hsome : e.transaction? = some txid) :
    ∃ before after, ∀ network, entryText network e =
      .ok (before ++ " <" ++ Explorer.page network txid ++ ">\n" ++ after) := by
  obtain ⟨head, hhead⟩ := exists_entryText_eq h
  obtain ⟨rows, label, rest, hrows, hbefore, hafter⟩ := Entry.exists_historyRows_eq hsome
  refine ⟨head ++ Row.lines .mainnet rows ++ label ++ ": " ++ txid, Row.lines .mainnet rest,
    fun network => ?_⟩
  rw [hhead, hrows, Row.lines_append, Row.lines, Row.lines_of_unlinked hbefore network .mainnet,
    Row.lines_of_unlinked hafter network .mainnet]
  simp [Row.line, Row.transaction, String.append_assoc]

end CommandLine

end WalletLedger
