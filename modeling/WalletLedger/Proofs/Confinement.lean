import WalletLedger.Proofs.CommandRuns
import WalletLedger.Proofs.FirstFaults
import WalletLedger.Proofs.Links

/-!
# What a run does not depend on

Each option has its place. The log level decides what is shown of the log and nothing else, the
network decides which page is linked and nothing else, and an entry is made of the options of its
kind (`Options.AgreeFor`). `run_confines_options` compares runs on options that differ in one of
these ways.
-/

namespace WalletLedger.CommandLine

namespace Options

/-- The options with another log level asked for. -/
def withLogLevel (o : Options) (name : Option String) : Options :=
  { o with display := { o.display with logLevel := name } }

/-- The options with another network asked for. -/
def withNetwork (o : Options) (name : Option String) : Options :=
  { o with display := { o.display with network := name } }

/-- Two sets of options agree on what an entry of this kind has besides what all entries have. -/
def SameParticulars (o o' : Options) : Kind → Prop
  | .lightningPayment => o.feeMsats = o'.feeMsats ∧ o.expiry = o'.expiry ∧
      o.invoice = o'.invoice ∧ o.description = o'.description ∧
      o.paymentHash = o'.paymentHash ∧ o.preimage = o'.preimage
  | .trade => o.orderId = o'.orderId
  | .orderMatchingFee => o.orderId = o'.orderId ∧ o.paymentHash = o'.paymentHash
  | .jitChannelOpenFee => o.txid = o'.txid
  | .onChainPayment => o.txid = o'.txid ∧ o.confirmations = o'.confirmations ∧
      o.feeSats = o'.feeSats

/-- Two sets of options are the same for an entry of this kind. -/
structure AgreeFor (k : Kind) (o o' : Options) : Prop where
  config : o.configFault = o'.configFault
  display : o.display = o'.display
  flow : o.flow = o'.flow
  status : o.status = o'.status
  amount : o.amount = o'.amount
  timestamp : o.timestamp = o'.timestamp
  kind : o.kind = o'.kind
  particulars : o.SameParticulars o' k

variable {o o' : Options}

/-! ### Options of other kinds and commands -/

theorem readPayload_congr {k : Kind} (h : o.SameParticulars o' k) :
    o.readPayload k = o'.readPayload k := by
  cases k <;> simp only [SameParticulars] at h <;> simp [readPayload, h]

theorem readRecord_congr {k : Kind} (hkind : o.kind? = some k) (h : o.AgreeFor k o') :
    o.readRecord = o'.readRecord := by
  obtain ⟨name, hname, hvalue⟩ := Option.bind_eq_some_iff.1 hkind
  unfold readRecord
  rw [← h.flow, ← h.status, ← h.amount, ← h.timestamp, ← h.kind, hname]
  simp only [required, hvalue, orRefuse, readPayload_congr h.particulars, bind, Except.bind]

theorem readEntry_congr {k : Kind} (hkind : o.kind? = some k) (h : o.AgreeFor k o') :
    o.readEntry = o'.readEntry := by
  rw [readEntry, readEntry, readRecord_congr hkind h]

theorem readSettings_congr (hconfig : o.configFault = o'.configFault)
    (hdisplay : o.display = o'.display) : o.readSettings = o'.readSettings := by
  rw [readSettings, readSettings, hconfig, hdisplay]

/-! ### Entries with a transaction -/

/-- The kind that is named is one of those with a transaction to link to. -/
def NamesLinkedKind (o : Options) : Prop :=
  o.kind = some "on_chain_payment" ∨ o.kind = some "jit_channel_open_fee"

theorem transaction?_of_readEntry {e : Entry} (h : o.readEntry = .ok e) :
    o.NamesLinkedKind ∧ (∃ txid, o.txid = some txid ∧ e.transaction? = some txid) ∨
      ¬o.NamesLinkedKind ∧ e.transaction? = none := by
  obtain ⟨r, hr, he⟩ := bind_eq_ok_iff.1 h
  have hdescribes := (readRecord_eq_ok_iff.1 hr).payload
  have hkeeps := (Entry.keeps_of_toEntry (mapError_eq_ok_iff.1 he)).payload
  unfold Entry.transaction?
  generalize e.payload = payload at hkeeps
  generalize r.payload = raw at hkeeps hdescribes
  cases hkeeps with
  | jitChannelOpenFee txid => exact Or.inl ⟨Or.inr hdescribes.1, txid, hdescribes.2, rfl⟩
  | onChain hp =>
    exact Or.inl ⟨Or.inl hdescribes.1, _, hdescribes.2.1, congrArg some hp.txid⟩
  | _ => exact Or.inr ⟨by simp [NamesLinkedKind, hdescribes.1], rfl⟩

end Options

theorem run_entry_congr {o o' : Options} {k : Kind} (hkind : o.kind? = some k)
    (h : o.AgreeFor k o') : run "entry" o = run "entry" o' := by
  have hreply (settings : DisplaySettings) :
      replyTo "entry" settings o = replyTo "entry" settings o' := by
    change entryReply settings.network o = entryReply settings.network o'
    rw [entryReply, entryReply, Options.readEntry_congr hkind h]
  rw [run_eq (by decide), run_eq (by decide), Options.readSettings_congr h.config h.display]
  simp only [hreply]

/-! ### Display options -/

/-- The commands look at no display option. -/
theorem replyTo_withDisplay (command : String) (settings : DisplaySettings) (o : Options)
    (display : DisplayOptions) :
    replyTo command settings { o with display } = replyTo command settings o := by
  unfold replyTo
  cases Command.table.value? command with
  | none => rfl
  | some known => cases known <;> rfl

/-- The commands do not look at the log level. -/
theorem replyTo_withLevel (command : String) (settings : DisplaySettings) (o : Options)
    (logLevel : LogLevel) :
    replyTo command { settings with logLevel } o = replyTo command settings o := by
  unfold replyTo
  cases Command.table.value? command with
  | none => rfl
  | some known => cases known <;> rfl

/-- Only entries are shown with a link. -/
theorem replyTo_of_ne_entry {command : String} (hcommand : command ≠ "entry") (o : Options)
    (settings settings' : DisplaySettings) :
    replyTo command settings' o = replyTo command settings o := by
  unfold replyTo
  cases hvalue : Command.table.value? command with
  | none => rfl
  | some known =>
    cases known with
    | entry =>
      rw [Command.value?_eq_some_iff] at hvalue
      simp [Command.table, hcommand] at hvalue
    | _ => rfl

/-- Two texts are the same around the links to a transaction on two networks. -/
def SameAroundLink (n m : Network) (txid text text' : String) : Prop :=
  ∃ before after link link', Explorer.transactionPage (.listed n) txid = .ok link ∧
    Explorer.transactionPage (.listed m) txid = .ok link' ∧
    text = before ++ " <" ++ link ++ ">\n" ++ after ∧
    text' = before ++ " <" ++ link' ++ ">\n" ++ after ∧
    (link = link' ↔ n = m ∨ Explorer.IsAtRoot n ∧ Explorer.IsAtRoot m)

theorem sameAroundLink_page (n m : Network) (txid before after : String) :
    SameAroundLink n m txid (before ++ " <" ++ Explorer.page n txid ++ ">\n" ++ after)
      (before ++ " <" ++ Explorer.page m txid ++ ">\n" ++ after) :=
  ⟨before, after, _, _, Explorer.transactionPage_listed n txid,
    Explorer.transactionPage_listed m txid, rfl, rfl, Explorer.page_eq_iff⟩

/-- A run that shows an entry shows a link if the entry is of a kind with a transaction. -/
theorem entryReply_networks {o : Options} {e : Entry} (he : o.readEntry = .ok e) (n m : Network) :
    ∃ text text', entryReply n o = .ok (.done text) ∧ entryReply m o = .ok (.done text') ∧
      (¬o.NamesLinkedKind → text' = text) ∧
      (o.NamesLinkedKind → ∃ txid, o.txid = some txid ∧ SameAroundLink n m txid text text') := by
  have hwf := wellFormed_of_readEntry he
  simp only [entryReply, he]
  rcases Options.transaction?_of_readEntry he with
    ⟨hlinked, txid, htxid, hsome⟩ | ⟨hlinked, hnone⟩
  · obtain ⟨before, after, htext⟩ := exists_entryText_of_transaction hwf hsome
    refine ⟨_, _, by rw [htext]; rfl, by rw [htext]; rfl, absurd hlinked, fun _ => ?_⟩
    exact ⟨txid, htxid, sameAroundLink_page n m txid before after⟩
  · obtain ⟨text, htext⟩ := exists_entryText_of_no_transaction hwf hnone
    refine ⟨text, text, by rw [htext]; rfl, by rw [htext]; rfl, fun _ => rfl, fun h => ?_⟩
    exact absurd h hlinked

/-- How the replies to a command on two networks stand to one another. -/
theorem replyTo_networks (command : String) (o : Options) (settings settings' : DisplaySettings) :
    ∃ reply reply', replyTo command settings o = .ok reply ∧
      replyTo command settings' o = .ok reply' ∧ reply'.refusal = reply.refusal ∧
      (¬(command = "entry" ∧ reply.refusal = none ∧ o.NamesLinkedKind) →
        reply'.printed = reply.printed) ∧
      (command = "entry" → reply.refusal = none → o.NamesLinkedKind →
        ∃ txid, o.txid = some txid ∧
          SameAroundLink settings.network settings'.network txid reply.printed reply'.printed) := by
  by_cases hcommand : command = "entry"
  · subst hcommand
    have hentry (s : DisplaySettings) : replyTo "entry" s o = entryReply s.network o := rfl
    rw [hentry, hentry]
    cases he : o.readEntry with
    | error r =>
      have hrefused (n : Network) : entryReply n o = .ok (.refused r) := by
        simp only [entryReply, he]
      refine ⟨_, _, hrefused _, hrefused _, rfl, fun _ => rfl, fun _ h => ?_⟩
      cases h
    | ok e =>
      obtain ⟨text, text', htext, htext', hsame, hlinked⟩ :=
        entryReply_networks he settings.network settings'.network
      refine ⟨_, _, htext, htext', rfl, fun h => hsame fun hkind => h ⟨rfl, rfl, hkind⟩, ?_⟩
      exact fun _ _ hkind => hlinked hkind
  · obtain ⟨reply, hreply, -⟩ := exists_replyTo command settings o
    rw [replyTo_of_ne_entry hcommand o settings settings']
    exact ⟨reply, reply, hreply, hreply, rfl, fun _ => rfl, fun h => absurd h hcommand⟩

/-! ### Runs -/

theorem run_withLogLevel {command : String} (hcommand : command ≠ "") {o : Options}
    {settings : DisplaySettings} (hsettings : o.readSettings = .ok settings)
    {name : Option String} {level : LogLevel}
    (hlevel : LogLevel.table.value? (name.getD "info") = some level) :
    ∃ x y, run command o = .ok x ∧ run command (o.withLogLevel name) = .ok y ∧
      y.status = x.status ∧ y.stdout = x.stdout ∧ y.stderr = x.stderr := by
  obtain ⟨hconfig, hnetwork, -⟩ := Options.readSettings_eq_ok_iff.1 hsettings
  have hother : (o.withLogLevel name).readSettings = .ok ⟨settings.network, level⟩ :=
    Options.readSettings_eq_ok_iff.2 ⟨hconfig, hnetwork, hlevel⟩
  obtain ⟨reply, hreply, hrun⟩ := exists_run_eq_ofReply hcommand hsettings
  obtain ⟨reply', hreply', hrun'⟩ := exists_run_eq_ofReply hcommand hother
  have hsame : replyTo command ⟨settings.network, level⟩ (o.withLogLevel name) = .ok reply := by
    rw [← hreply, ← replyTo_withLevel command settings o level]
    exact replyTo_withDisplay command _ o _
  cases hreply'.symm.trans hsame
  exact ⟨_, _, hrun, hrun', rfl, rfl, rfl⟩

theorem run_withNetwork {command : String} (hcommand : command ≠ "") {o : Options}
    {settings : DisplaySettings} (hsettings : o.readSettings = .ok settings)
    {name : Option String} {network : Network}
    (hnetwork : Network.table.value? (name.getD "mainnet") = some network) :
    ∃ x y, run command o = .ok x ∧ run command (o.withNetwork name) = .ok y ∧
      y.status = x.status ∧ y.stderr = x.stderr ∧
      (¬(command = "entry" ∧ x.status = 0 ∧ o.NamesLinkedKind) → y.stdout = x.stdout) ∧
      (command = "entry" → x.status = 0 → o.NamesLinkedKind → ∃ txid, o.txid = some txid ∧
        SameAroundLink settings.network network txid x.stdout y.stdout) := by
  obtain ⟨hconfig, -, hlevel⟩ := Options.readSettings_eq_ok_iff.1 hsettings
  have hother : (o.withNetwork name).readSettings = .ok ⟨network, settings.logLevel⟩ :=
    Options.readSettings_eq_ok_iff.2 ⟨hconfig, hnetwork, hlevel⟩
  obtain ⟨reply, hreply, hrun⟩ := exists_run_eq_ofReply hcommand hsettings
  obtain ⟨reply', hreply', hrun'⟩ := exists_run_eq_ofReply hcommand hother
  have hdisplay := replyTo_withDisplay command ⟨network, settings.logLevel⟩ o
    { o.display with network := name }
  obtain ⟨_, _, hreads, hreads', hrefusal, hsame, hlinked⟩ :=
    replyTo_networks command o settings ⟨network, settings.logLevel⟩
  cases hreply.symm.trans hreads
  cases hreply'.symm.trans (hdisplay.trans hreads')
  refine ⟨_, _, hrun, hrun', ?_, ?_, ?_, ?_⟩
  · simp only [Outcome.ofReply, hrefusal]
  · simp only [Outcome.ofReply, hrefusal]
  · rw [status_ofReply_eq_zero_iff]
    exact hsame
  · rw [status_ofReply_eq_zero_iff]
    exact hlinked

/-- **Options stay in their places.** With another log level a run ends and prints the same. With
another network it ends and reports the same, and prints the same but for the link to the
transaction of an entry, which is the same only between networks at the root of the explorer. And
what entries of other kinds or other commands are made of is nothing to an entry. -/
theorem run_confines_options {command : String} (hcommand : command ≠ "") {o : Options}
    {network : Network} {level : LogLevel} (hconfig : o.configFault = none)
    (hnetwork : Network.table.value? (o.display.network.getD "mainnet") = some network)
    (hlevel : LogLevel.table.value? (o.display.logLevel.getD "info") = some level) :
    (∀ name level', LogLevel.table.value? (name.getD "info") = some level' →
      ∃ x y, run command o = .ok x ∧ run command (o.withLogLevel name) = .ok y ∧
        y.status = x.status ∧ y.stdout = x.stdout ∧ y.stderr = x.stderr) ∧
    (∀ name network', Network.table.value? (name.getD "mainnet") = some network' →
      ∃ x y, run command o = .ok x ∧ run command (o.withNetwork name) = .ok y ∧
        y.status = x.status ∧ y.stderr = x.stderr ∧
        (¬(command = "entry" ∧ x.status = 0 ∧ o.NamesLinkedKind) → y.stdout = x.stdout) ∧
        (command = "entry" → x.status = 0 → o.NamesLinkedKind → ∃ txid, o.txid = some txid ∧
          SameAroundLink network network' txid x.stdout y.stdout)) ∧
    ∀ k, o.kind? = some k → ∀ o', o.AgreeFor k o' → run "entry" o = run "entry" o' := by
  have hsettings : o.readSettings = .ok ⟨network, level⟩ :=
    Options.readSettings_eq_ok_iff.2 ⟨hconfig, hnetwork, hlevel⟩
  refine ⟨fun name level' h => run_withLogLevel hcommand hsettings h,
    fun name network' h => run_withNetwork hcommand hsettings h, ?_⟩
  exact fun k hkind o' hagree => run_entry_congr hkind hagree

/-- The fee for a channel, to be shown with its transaction on a test network. -/
def channelFee : Options where
  display := ⟨some "signet", none⟩
  flow := some "Outbound"
  status := some "Pending"
  amount := some 3000
  kind := some "jit_channel_open_fee"
  txid := some "f00d"

/-- Its lines have another link on a private network, and a number of confirmations that would be
refused for a payment does not matter to it. -/
theorem run_confines_options_channelFee :
    "entry" ≠ "" ∧ channelFee.configFault = none ∧
    Network.table.value? (channelFee.display.network.getD "mainnet") = some .signet ∧
    LogLevel.table.value? (channelFee.display.logLevel.getD "info") = some .info ∧
    (∃ x y, run "entry" channelFee = .ok x ∧
      run "entry" (channelFee.withLogLevel (some "off")) = .ok y ∧ y.stdout = x.stdout) ∧
    (∃ x y, run "entry" channelFee = .ok x ∧
      run "entry" (channelFee.withNetwork (some "regtest")) = .ok y ∧ y.status = x.status ∧
      SameAroundLink .signet .regtest "f00d" x.stdout y.stdout) ∧
    run "entry" channelFee =
      run "entry" { channelFee with confirmations := -1, orderId := some "ord-42" } := by
  have hcommand : "entry" ≠ "" := by decide
  have hconfig : channelFee.configFault = none := rfl
  have hnetwork : Network.table.value? (channelFee.display.network.getD "mainnet") =
      some .signet := by decide
  have hlevel : LogLevel.table.value? (channelFee.display.logLevel.getD "info") = some .info := by
    decide
  have hchecks : Check.first (runChecks "entry" channelFee) = none := by decide +kernel
  have hagree : channelFee.AgreeFor .jitChannelOpenFee
      { channelFee with confirmations := -1, orderId := some "ord-42" } :=
    ⟨rfl, rfl, rfl, rfl, rfl, rfl, rfl, rfl⟩
  obtain ⟨outcome, houtcome, hreports⟩ := exists_run hcommand channelFee
  rw [hchecks] at hreports
  obtain ⟨hquiet, hother, hforeign⟩ := run_confines_options hcommand hconfig hnetwork hlevel
  obtain ⟨x, y, hx, hy, -, hstdout, -⟩ := hquiet (some "off") .off (by decide)
  obtain ⟨x', y', hx', hy', hstatus, -, -, hlinked⟩ := hother (some "regtest") .regtest (by decide)
  cases houtcome.symm.trans hx'
  obtain ⟨txid, htxid, hlink⟩ := hlinked rfl hreports.1 (Or.inr rfl)
  cases htxid
  exact ⟨hcommand, hconfig, hnetwork, hlevel, ⟨x, y, hx, hy, hstdout⟩,
    ⟨outcome, y', hx', hy', hstatus, hlink⟩, hforeign .jitChannelOpenFee (by decide) _ hagree⟩

end WalletLedger.CommandLine
