import WalletLedger.CommandLine.Run
import WalletLedger.Proofs.DisplayNames
import WalletLedger.Proofs.Replies

/-!
# Runs of a command

A run looks at the configuration file and the display settings, and then at the command and what the
command looks at (`runChecks`). The main statements say what a run reports
(`run_reports_first_failing`) and what it prints (`run_refused_prints`); what it logs
(`exists_run_logs`) is put together with the configuration file elsewhere.
-/

namespace WalletLedger.CommandLine

/-! ### The display settings -/

namespace Options

/-- What is looked at before the command. -/
def settingsChecks (o : Options) : List (Check Report) :=
  [⟨o.configFault = none,
      ⟨"invalid_option", (o.configFault.map ConfigFault.message).getD ""⟩⟩,
    checkListed "unknown_network" "" Network.table (some (o.display.network.getD "mainnet")),
    checkListed "unknown_log_level" "" LogLevel.table (some (o.display.logLevel.getD "info"))]

/-- The display settings, if nothing is wrong with them and with the configuration file. -/
def readSettings (o : Options) : Except Refusal DisplaySettings :=
  match o.configFault with
  | some fault => .error fault.refusal
  | none => (DisplaySettings.ofOptions o.display.filled).mapError Refusal.settings

theorem follows_readSettings (o : Options) :
    Follows Refusal.report o.readSettings o.settingsChecks := by
  unfold readSettings settingsChecks
  cases o.configFault with
  | some fault => rfl
  | none =>
    have h := (DisplaySettings.follows_ofOptions_filled o.display).told fun e =>
      Refusal.report (.settings e)
    exact .mapError h

theorem readSettings_eq_ok_iff {o : Options} {settings : DisplaySettings} :
    o.readSettings = .ok settings ↔
      o.configFault = none ∧
      Network.table.value? (o.display.network.getD "mainnet") = some settings.network ∧
      LogLevel.table.value? (o.display.logLevel.getD "info") = some settings.logLevel := by
  rw [← DisplaySettings.ofOptions_filled_eq_ok_iff, readSettings]
  cases o.configFault with
  | some fault => simp
  | none => simp [mapError_eq_ok_iff]

end Options

/-! ### The command -/

theorem Command.value?_eq_some_iff {command : String} {known : Command} :
    Command.table.value? command = some known ↔ (command, known) ∈ Command.table.rows :=
  NameTable.value?_eq_some_iff_mem (by decide)

theorem eq_option_of_value? {command : String}
    (h : Command.table.value? command = some .option) : command = "option" := by
  rw [Command.value?_eq_some_iff] at h
  simpa [Command.table] using h

/-- What is looked at when nothing is wrong with the settings. -/
def commandChecks (command : String) (o : Options) : List (Check Report) :=
  checkListed "unknown_command" command Command.table (some command) ::
    (Command.table.value? command).elim [] (Command.checks o)

/-- All that a run looks at, in this order. -/
def runChecks (command : String) (o : Options) : List (Check Report) :=
  o.settingsChecks ++ commandChecks command o

theorem exists_replyTo (command : String) (settings : DisplaySettings) (o : Options) :
    ∃ reply, replyTo command settings o = .ok reply ∧
      reply.refusal.map Refusal.report = Check.first (commandChecks command o) ∧
      (reply.refusal = none ∨ reply.printed = "" ∨
        command = "option" ∧ ∃ offer, o.OfferWithoutFee offer ∧
          reply.printed = offerText offer) := by
  cases hcommand : Command.table.value? command with
  | none =>
    have hname : command ∉ Command.table.names := NameTable.value?_eq_none_iff.1 hcommand
    have hlisted :
        (checkListed "unknown_command" command Command.table (some command)).holds = false :=
      decide_eq_false hname
    refine ⟨.refused (.unknownCommand command), by rw [replyTo, hcommand], ?_, Or.inr (Or.inl rfl)⟩
    rw [commandChecks, Check.first_cons_of_not_holds hlisted]
    rfl
  | some known =>
    obtain ⟨reply, hreply, hfits⟩ := known.exists_reply settings o
    have hlisted : (checkListed "unknown_command" command Command.table (some command)).holds :=
      decide_eq_true (NameTable.mem_names_of_value? hcommand)
    refine ⟨reply, by rw [replyTo, hcommand]; exact hreply, ?_, ?_⟩
    · rw [hfits.refusal, commandChecks, Check.first_cons_of_holds hlisted, hcommand,
        Option.elim_some]
    · rcases hfits.printed with hnone | hempty | ⟨rfl, hoffer⟩
      · exact Or.inl hnone
      · exact Or.inr (Or.inl hempty)
      · exact Or.inr (Or.inr ⟨eq_option_of_value? hcommand, hoffer⟩)

/-! ### Runs -/

/-- A run reads the display settings, and the command replies under them. -/
theorem run_eq {command : String} (hcommand : command ≠ "") (o : Options) :
    run command o =
      match o.readSettings with
      | .error r => .ok (.refused r)
      | .ok settings => (replyTo command settings o).map (Outcome.ofReply settings) := by
  unfold run Options.readSettings
  cases o.configFault with
  | some fault => rfl
  | none =>
    simp only [if_neg hcommand]
    cases DisplaySettings.ofOptions o.display.filled <;> rfl

/-- A run ends with the settings or with a reply. -/
theorem run_cases {command : String} (hcommand : command ≠ "") (o : Options) :
    (∃ r, o.readSettings = .error r ∧ run command o = .ok (.refused r)) ∨
    ∃ settings reply, o.readSettings = .ok settings ∧
      replyTo command settings o = .ok reply ∧
      run command o = .ok (.ofReply settings reply) := by
  rw [run_eq hcommand]
  cases hsettings : o.readSettings with
  | error r => exact Or.inl ⟨r, rfl, rfl⟩
  | ok settings =>
    obtain ⟨reply, hreply, -⟩ := exists_replyTo command settings o
    exact Or.inr ⟨settings, reply, rfl, hreply, by simp only [hreply]; rfl⟩

/-- A run on options that ask for known settings ends with the reply under these settings. -/
theorem exists_run_eq_ofReply {command : String} (hcommand : command ≠ "") {o : Options}
    {settings : DisplaySettings} (hsettings : o.readSettings = .ok settings) :
    ∃ reply, replyTo command settings o = .ok reply ∧
      run command o = .ok (.ofReply settings reply) := by
  obtain ⟨reply, hreply, -⟩ := exists_replyTo command settings o
  refine ⟨reply, hreply, ?_⟩
  rw [run_eq hcommand, hsettings]
  simp only [hreply]
  rfl

/-- A run on such options prints what the command replies if the reply is not refused. -/
theorem exists_run_of_done {command : String} (hcommand : command ≠ "") {o : Options}
    {settings : DisplaySettings} (hsettings : o.readSettings = .ok settings) {text : String}
    (hreply : replyTo command settings o = .ok (.done text)) :
    ∃ outcome, run command o = .ok outcome ∧ outcome.status = 0 ∧ outcome.stdout = text := by
  obtain ⟨reply, hdone, hrun⟩ := exists_run_eq_ofReply hcommand hsettings
  cases hdone.symm.trans hreply
  exact ⟨_, hrun, rfl, rfl⟩

theorem status_ofReply_eq_zero_iff {settings : DisplaySettings} {reply : Reply} :
    (Outcome.ofReply settings reply).status = 0 ↔ reply.refusal = none := by
  unfold Outcome.ofReply
  split <;> simp_all

/-- A run that succeeds shows a reply that was carried out to its end. -/
theorem exists_reply_of_status {command : String} (hcommand : command ≠ "") {o : Options}
    {outcome : Outcome} (hrun : run command o = .ok outcome) (hstatus : outcome.status = 0) :
    ∃ settings reply, o.readSettings = .ok settings ∧ replyTo command settings o = .ok reply ∧
      reply.refusal = none ∧ outcome.stdout = reply.printed := by
  rcases run_cases hcommand o with ⟨r, hr, hrefused⟩ | ⟨settings, reply, hsettings, hreply, hshown⟩
  · cases hrun.symm.trans hrefused
    cases hstatus
  · cases hrun.symm.trans hshown
    exact ⟨settings, reply, hsettings, hreply, status_ofReply_eq_zero_iff.1 hstatus, rfl⟩

/-- An outcome is that of a run in which this is the first thing to report, if anything is. -/
def Outcome.Reports (outcome : Outcome) : Option Report → Prop
  | none => outcome.status = 0 ∧ outcome.stderr = ""
  | some report => outcome.status = 1 ∧ outcome.stderr = report.text

theorem reports_refused (r : Refusal) : (Outcome.refused r).Reports (some r.report) :=
  ⟨rfl, r.text_report.symm⟩

theorem reports_ofReply (settings : DisplaySettings) (reply : Reply) :
    (Outcome.ofReply settings reply).Reports (reply.refusal.map Refusal.report) := by
  unfold Outcome.ofReply
  cases reply.refusal with
  | none => exact ⟨rfl, rfl⟩
  | some r => exact ⟨rfl, r.text_report.symm⟩

theorem exists_run {command : String} (hcommand : command ≠ "") (o : Options) :
    ∃ outcome, run command o = .ok outcome ∧
      outcome.Reports (Check.first (runChecks command o)) := by
  have hchecks := o.follows_readSettings
  rw [runChecks, Check.first_append]
  rcases run_cases hcommand o with ⟨r, hr, hrun⟩ | ⟨settings, reply, hsettings, hreply, hrun⟩
  · rw [hr, Follows.error_iff] at hchecks
    refine ⟨_, hrun, ?_⟩
    rw [hchecks, Option.some_or]
    exact reports_refused r
  · obtain ⟨same, hsame, hrefusal, -⟩ := exists_replyTo command settings o
    cases hreply.symm.trans hsame
    rw [hsettings, Follows.ok_iff] at hchecks
    refine ⟨_, hrun, ?_⟩
    rw [hchecks, Option.none_or, ← hrefusal]
    exact reports_ofReply settings reply

/-- **What a run reports.** A run succeeds without a report exactly if all checks hold, and
otherwise fails with the report of the first that does not. -/
theorem run_reports_first_failing {command : String} (hcommand : command ≠ "") (o : Options) :
    ∃ outcome, run command o = .ok outcome ∧
      ((outcome.status = 0 ∧ outcome.stderr = "") ↔ ∀ c ∈ runChecks command o, c.holds) ∧
      ∀ c, (runChecks command o).find? (fun c => !c.holds) = some c →
        outcome.status = 1 ∧
          outcome.stderr = "error: " ++ c.reason.code ++
            (if c.reason.detail = "" then "" else " (" ++ c.reason.detail ++ ")") ++ "\n" := by
  obtain ⟨outcome, hrun, hreports⟩ := exists_run hcommand o
  refine ⟨outcome, hrun, ?_, fun c hc => ?_⟩
  · rw [← Check.first_eq_none_iff]
    cases hfirst : Check.first (runChecks command o) with
    | none =>
      rw [hfirst] at hreports
      exact iff_of_true hreports rfl
    | some report =>
      rw [hfirst] at hreports
      refine iff_of_false (fun h => ?_) (by simp)
      rw [hreports.1] at h
      exact absurd h.1 (by decide)
  · rw [Check.first, hc, Option.map_some] at hreports
    exact hreports

/-- The second of two required options is missed before the flow is found to be unknown. -/
theorem run_reports_first_failing_hash :
    let o : Options := {
      flow := some "Sideways"
      status := some "Pending"
      amount := some 1
      kind := some "order_matching_fee"
      orderId := some "ord-42" }
    "entry" ≠ "" ∧ ∃ outcome, run "entry" o = .ok outcome ∧
      ¬(outcome.status = 0 ∧ outcome.stderr = "") ∧
      outcome.status = 1 ∧ outcome.stderr = "error: missing_option (--payment-hash)\n" := by
  intro o
  have hmissing : (runChecks "entry" o).find? (fun c => !c.holds) =
      some ⟨false, ⟨"missing_option", "--payment-hash"⟩⟩ := rfl
  have hcommand : "entry" ≠ "" := by decide
  obtain ⟨outcome, hrun, hall, hfirst⟩ := run_reports_first_failing hcommand o
  refine ⟨hcommand, outcome, hrun, fun hnone => ?_, hfirst _ hmissing⟩
  exact absurd (hall.1 hnone _ (List.mem_of_find?_eq_some hmissing)) (by decide)

/-- **What a refused run prints.** A run that fails has printed nothing, with one exception: an
offer whose amount is negative is printed and then refused. -/
theorem run_refused_prints {command : String} (hcommand : command ≠ "") (o : Options) :
    ∃ outcome, run command o = .ok outcome ∧
      (outcome.status = 1 → outcome.stdout = "" ∨
        command = "option" ∧ ∃ offer, o.OfferWithoutFee offer ∧
          outcome.stdout = offerText offer) ∧
      (command = "option" → (∀ c ∈ o.settingsChecks, c.holds) →
        ∀ offer, o.OfferWithoutFee offer →
          outcome.status = 1 ∧ outcome.stdout = offerText offer) := by
  have hchecks := o.follows_readSettings
  rcases run_cases hcommand o with ⟨r, hr, hrun⟩ | ⟨settings, reply, hsettings, hreply, hrun⟩
  · refine ⟨_, hrun, fun _ => Or.inl rfl, fun _ hall => ?_⟩
    rw [hr, Follows.error_iff, Check.first_eq_none_iff.2 hall] at hchecks
    cases hchecks
  · obtain ⟨same, hsame, -, hprinted⟩ := exists_replyTo command settings o
    cases hreply.symm.trans hsame
    refine ⟨_, hrun, fun hstatus => ?_, ?_⟩
    · rcases hprinted with hnone | hempty | hoffer
      · simp [Outcome.ofReply, hnone] at hstatus
      · exact Or.inl hempty
      · exact Or.inr hoffer
    · rintro rfl - offer hoffer
      have hlate : replyTo "option" settings o = .ok (optionReply o) := rfl
      cases hreply.symm.trans hlate
      rw [optionReply_of_offerWithoutFee hoffer]
      exact ⟨rfl, rfl⟩

/-- An offer, and a negative amount to reckon the fee on. -/
def refusedOffer : Options where
  id := some 7
  title := "Pro"
  tradeUpTo := some 1000000
  minDeposit := some 10000
  maxDeposit := some 500000
  amount := some (-1)

theorem refusedOffer_offerWithoutFee :
    refusedOffer.OfferWithoutFee
      ⟨7, "Pro", ⟨1000000⟩, ⟨10000⟩, ⟨500000⟩, ⟨.zero, 0⟩, .one⟩ :=
  ⟨rfl, -1, rfl, by decide⟩

/-- The run on this offer fails, and its lines are printed. -/
theorem run_refused_prints_offer :
    "option" ≠ "" ∧ ∃ outcome offer, run "option" refusedOffer = .ok outcome ∧
      refusedOffer.OfferWithoutFee offer ∧
      outcome.status = 1 ∧ outcome.stdout = offerText offer := by
  have hcommand : "option" ≠ "" := by decide
  have hsettings : ∀ c ∈ refusedOffer.settingsChecks, c.holds := by decide
  obtain ⟨outcome, hrun, -, hlate⟩ := run_refused_prints hcommand refusedOffer
  exact ⟨hcommand, outcome, _, hrun, refusedOffer_offerWithoutFee,
    hlate rfl hsettings _ refusedOffer_offerWithoutFee⟩

/-- Not every run that fails has printed nothing. -/
theorem refused_run_may_print :
    ¬∀ (command : String) (o : Options), command ≠ "" → ∀ outcome,
      run command o = .ok outcome → outcome.status = 1 → outcome.stdout = "" := by
  intro hempty
  have hreply := optionReply_of_offerWithoutFee refusedOffer_offerWithoutFee
  have hrun : run "option" refusedOffer = .ok (.ofReply {} (optionReply refusedOffer)) := rfl
  rw [hreply] at hrun
  have hprinted := hempty "option" refusedOffer (by decide) _ hrun rfl
  exact absurd hprinted (by decide +kernel)

end WalletLedger.CommandLine
