import WalletLedger.Proofs.Confinement

/-!
# Runs that show an entry

The options of such a run describe a record (`Options.DescribesRecord`), the record makes an entry,
and what is printed is the view of this entry and nothing else (`run_entry_shows_view`).
`ShowsEntry` writes it down part by part: the words and the sign are those that are printed for the
movement alone (`run_classify_of_named`), and only the row of the entry's transaction has a link.
-/

namespace WalletLedger

/-! ### Rows with a link -/

/-- The rows with a link. -/
def Row.linked (rows : List Row) : List Row := rows.filter fun r => r.hint = some .transactionId

theorem Row.linked_of_unlinked {rows : List Row} (h : Entry.Unlinked rows) : linked rows = [] := by
  simpa [linked, Entry.Unlinked] using h

theorem Entry.exists_linked_historyRows {e : Entry} {txid : String}
    (h : e.transaction? = some txid) :
    ∃ label, Row.linked e.historyRows = [Row.transaction label txid] := by
  obtain ⟨before, label, after, hrows, hbefore, hafter⟩ := exists_historyRows_eq h
  refine ⟨label, ?_⟩
  have hone : Row.linked (Row.transaction label txid :: after) =
      Row.transaction label txid :: Row.linked after := rfl
  rw [hrows, Row.linked, List.filter_append]
  change Row.linked before ++ Row.linked (Row.transaction label txid :: after) = _
  rw [hone, Row.linked_of_unlinked hbefore, Row.linked_of_unlinked hafter, List.nil_append]

namespace CommandLine

variable {o : Options}

/-! ### The movement alone -/

/-- The words for a movement that is named by its flow and status. -/
theorem run_classify_of_named {settings : DisplaySettings} {flow : Flow} {status : Status}
    {c : Classification} (hsettings : o.readSettings = .ok settings)
    (hflow : o.flow = some (Enumeration.name flow))
    (hstatus : o.status = some (Enumeration.name status))
    (hc : Movement.classify (.listed flow) (.listed status) = .ok c) :
    ∃ outcome, run "classify" o = .ok outcome ∧ outcome.status = 0 ∧
      outcome.stdout = Decimal.signedText c.sign ++ " " ++ c.verb ++ "\n" := by
  have hmovement : o.readMovement = .ok (flow, status) := by
    simp only [Options.readMovement, Options.readFlow, Options.readStatus, bind_eq_ok_iff,
      required_eq_ok_iff, orRefuse_eq_ok_iff]
    exact ⟨flow, ⟨_, hflow, Flow.value?_eq_some_iff.2 rfl⟩,
      status, ⟨_, hstatus, Status.value?_eq_some_iff.2 rfl⟩, rfl⟩
  have hwords : replyTo "classify" settings o =
      .ok (.done (Decimal.signedText c.sign ++ " " ++ c.verb ++ "\n")) := by
    change classifyReply o = _
    simp only [classifyReply, hmovement, movementText_eq hc]
    rfl
  exact exists_run_of_done (by decide) hsettings hwords

/-! ### The entry -/

/-- An entry that is shown was made of the record that the options describe. -/
theorem exists_entry_of_refusal_eq_none {network : Network} {reply : Reply}
    (hreply : entryReply network o = .ok reply) (hnone : reply.refusal = none) :
    ∃ r e, o.readRecord = .ok r ∧ r.toEntry = .ok e ∧ o.readEntry = .ok e ∧
      entryText network e = .ok reply.printed := by
  unfold entryReply at hreply
  cases he : o.readEntry with
  | error refusal =>
    simp only [he, Except.ok.injEq] at hreply
    subst hreply
    cases hnone
  | ok e =>
    obtain ⟨r, hr, hentry⟩ := bind_eq_ok_iff.1 he
    obtain ⟨text, htext⟩ := exists_entryText_eq_ok network (wellFormed_of_readEntry he)
    simp only [he, htext] at hreply
    cases hreply
    exact ⟨r, e, hr, mapError_eq_ok_iff.1 hentry, rfl, htext⟩

/-- One row of the entry has a link if the options name a kind with a transaction, and none
otherwise. -/
theorem linked_of_readEntry {e : Entry} (h : o.readEntry = .ok e) :
    (o.NamesLinkedKind → ∃ label txid, o.txid = some txid ∧
      Row.linked e.historyRows = [Row.transaction label txid]) ∧
    (¬o.NamesLinkedKind → Row.linked e.historyRows = []) := by
  rcases Options.transaction?_of_readEntry h with ⟨hlinked, txid, htxid, hsome⟩ | ⟨hlinked, hnone⟩
  · obtain ⟨label, hrow⟩ := Entry.exists_linked_historyRows hsome
    exact ⟨fun _ => ⟨label, txid, htxid, hrow⟩, absurd hlinked⟩
  · have hrows := Row.linked_of_unlinked (Entry.unlinked_historyRows hnone)
    exact ⟨fun h => absurd h hlinked, fun _ => hrows⟩

/-- The outcome shows the entry of a record under the settings, in the words for its movement. -/
structure ShowsEntry (o : Options) (outcome : Outcome) (settings : DisplaySettings) (r : Record)
    (e : Entry) (c : Classification) : Prop where
  /-- The settings are those that the options ask for. -/
  configured : o.readSettings = .ok settings
  /-- The record is the one that the options describe. -/
  record : o.DescribesRecord r
  /-- The entry is made of the record. -/
  entry : r.toEntry = .ok e
  /-- The words and the sign are those of its movement. -/
  classified : Movement.classify e.flow e.status = .ok c
  /-- The view has the words in its headline. -/
  headline : e.view.headline = .ok ("You " ++ c.verb)
  /-- The view has the amount with the sign. -/
  signedUnits : e.view.signedUnits = .ok (c.sign * r.amount.toInt)
  /-- The same sign and words are printed for the flow and the status alone. -/
  words : ∀ o' settings', o'.readSettings = .ok settings' → o'.flow = o.flow →
    o'.status = o.status → ∃ printed, run "classify" o' = .ok printed ∧ printed.status = 0 ∧
      printed.stdout = Decimal.signedText c.sign ++ " " ++ c.verb ++ "\n"
  /-- The lines are those of the view, with a direction beside an arrow. -/
  stdout : outcome.stdout =
    e.view.title ++ " (" ++ e.view.chainLabel ++ ")\n"
      ++ "icon: " ++ (Enumeration.name e.view.icon ++ e.directionText) ++ "\n"
      ++ ("You " ++ c.verb) ++ " " ++ Decimal.signedText (c.sign * r.amount.toInt) ++ " sats\n"
      ++ Row.lines settings.network e.view.historyRows
  /-- The row of the transaction has a link to its page, and no other row has one. -/
  linked : o.NamesLinkedKind → ∃ label txid, o.txid = some txid ∧
    Row.linked e.view.historyRows = [Row.transaction label txid] ∧
    Explorer.transactionPage (.listed settings.network) txid =
      .ok (Explorer.page settings.network txid)
  /-- Without a transaction no row has a link. -/
  unlinked : ¬o.NamesLinkedKind → Row.linked e.view.historyRows = []

/-- **A run that shows an entry prints its view and nothing else.** The options describe a record,
the record makes the entry, and the lines are those of the view. The words and the sign in them are
those that are printed for the flow and the status alone, and the link to the explorer follows the
transaction and no other row. -/
theorem run_entry_shows_view {outcome : Outcome} (hrun : run "entry" o = .ok outcome)
    (hstatus : outcome.status = 0) :
    ∃ settings r e c, ShowsEntry o outcome settings r e c := by
  obtain ⟨settings, reply, hsettings, hreply, hnone, hprinted⟩ :=
    exists_reply_of_status (by decide) hrun hstatus
  obtain ⟨r, e, hr, he, hread, htext⟩ := exists_entry_of_refusal_eq_none hreply hnone
  have hwf := wellFormed_of_readEntry hread
  have hdescribes := Options.readRecord_eq_ok_iff.1 hr
  have hkeeps := Entry.keeps_of_toEntry he
  obtain ⟨flow, hflow, hflowName⟩ := hkeeps.flow
  obtain ⟨status, hlisted, hstatusName⟩ := hkeeps.status
  obtain ⟨c, hc⟩ := Movement.exists_classify_eq_ok hwf.flow hwf.status
  have hlines := entryText_eq hwf hc settings.network
  have hunits := Entry.signedUnits_of_classify hwf hc
  rw [hkeeps.amount] at hlines hunits
  obtain ⟨hlinked, hunlinked⟩ := linked_of_readEntry hread
  exact ⟨settings, r, e, c, {
    configured := hsettings
    record := hdescribes
    entry := he
    classified := hc
    headline := Entry.headline_of_classify hc
    signedUnits := hunits
    words := fun o' settings' hsettings' hflow' hstatus' => by
      rw [hflow, hlisted] at hc
      refine run_classify_of_named hsettings' ?_ ?_ hc
      · rw [hflow', hflowName, hdescribes.flow]
      · rw [hstatus', hstatusName, hdescribes.status]
    stdout := hprinted.trans (Except.ok.inj (htext.symm.trans hlines))
    linked := fun hkind => by
      obtain ⟨label, txid, htxid, hrow⟩ := hlinked hkind
      exact ⟨label, txid, htxid, hrow, Explorer.transactionPage_listed _ _⟩
    unlinked := hunlinked }⟩

/-- A payment on the chain that failed, with the largest amount and a fee that is no amount. -/
def failedPayment : Options where
  display := ⟨some "testnet", some "warn"⟩
  flow := some "Outbound"
  status := some "Failed"
  amount := some 9223372036854775807
  kind := some "on_chain_payment"
  txid := some "c0ffee"
  confirmations := 4294967295
  feeSats := some (-1)

/-- Its amount is shown in full with the sign of the movement, and its transaction alone has a
link. -/
theorem run_entry_shows_view_failedPayment :
    ∃ (outcome words : Outcome) (e : Entry) (label : String),
      run "entry" failedPayment = .ok outcome ∧ outcome.status = 0 ∧
      e.view.signedUnits = .ok (-9223372036854775807) ∧
      Row.linked e.view.historyRows = [Row.transaction label "c0ffee"] ∧
      run "classify" failedPayment = .ok words ∧ words.stdout = "-1 tried to send\n" := by
  have hcommand : "entry" ≠ "" := by decide
  have hchecks : Check.first (runChecks "entry" failedPayment) = none := by decide +kernel
  obtain ⟨outcome, hrun, hreports⟩ := exists_run hcommand failedPayment
  rw [hchecks] at hreports
  obtain ⟨settings, r, e, c, hshows⟩ := run_entry_shows_view hrun hreports.1
  obtain ⟨label, txid, htxid, hrow, -⟩ := hshows.linked (Or.inl rfl)
  obtain ⟨words, hclassify, -, hstdout⟩ := hshows.words _ _ hshows.configured rfl rfl
  have hmovement : c = ⟨-1, "tried to send"⟩ := by
    obtain ⟨flow, hflow, hflowName⟩ := (Entry.keeps_of_toEntry hshows.entry).flow
    obtain ⟨status, hlisted, hstatusName⟩ := (Entry.keeps_of_toEntry hshows.entry).status
    rw [← Option.some.inj hshows.record.flow] at hflowName
    rw [← Option.some.inj hshows.record.status] at hstatusName
    cases Flow.value?_eq_some_iff.2 hflowName
    cases Status.value?_eq_some_iff.2 hstatusName
    have hc := hshows.classified
    rw [hflow, hlisted] at hc
    cases hc
    rfl
  have hunits := hshows.signedUnits
  rw [← Option.some.inj hshows.record.amount, hmovement] at hunits
  rw [hmovement] at hstdout
  cases htxid
  exact ⟨outcome, words, e, label, hrun, hreports.1, hunits, hrow, hclassify, hstdout⟩

end CommandLine

end WalletLedger
