import WalletLedger.Proofs.Catalogs
import WalletLedger.Proofs.CommandRuns

/-!
# Two ways to ask for a fee

The fee on an amount is quoted alone or below the offer that it belongs to. Options that describe an
offer and an amount also describe the fee alone, with the schedule of the offer
(`Options.readFee_of_readOption`), so both quotes name the same number (`run_option_quotes_fee`).
-/

namespace WalletLedger

/-! ### Numbers as they are given -/

theorem Decimal.signedText_natCast (n : Nat) : signedText (n : Int) = text n := by
  rw [signedText, if_neg (by omega), Int.natAbs_natCast]

/-- A number of units, written as it is given. -/
def unitsText (n : Int64) : String := Decimal.signedText n.toInt ++ " sats"

theorem Amount.text_eq_unitsText {a : Amount} {n : Int64} (h : (a.units.toNat : Int) = n.toInt) :
    a.text = unitsText n := by
  rw [text, unitsText, ← h, Decimal.signedText_natCast]

namespace CommandLine

variable {o : Options} {offer : LiquidityOption} {amount : Amount} {units : Int64}

/-! ### Offers and fees -/

theorem Options.readAmount_eq_ok_iff :
    readAmount units = .ok amount ↔ (amount.units.toNat : Int) = units.toInt := by
  rw [readAmount, mapError_eq_ok_iff, Amount.ofUnits_eq_ok_iff]

/-- The offer that is read is the one made of the row that the options describe. -/
theorem Options.readOption_eq_ok_iff :
    o.readOption = .ok offer ↔ ∃ row, o.readCatalogRow = .ok row ∧ row.CarriedBy offer := by
  simp only [readOption, bind_eq_ok_iff, mapError_eq_ok_iff, LiquidityOption.ofRow_eq_ok_iff]

/-- The fee alone is reckoned by the schedule of the offer. -/
theorem Options.readFee_of_readOption (hoffer : o.readOption = .ok offer)
    (hunits : o.amount = some units) (hamount : readAmount units = .ok amount) :
    o.readFee = .ok (offer.fee, amount) := by
  obtain ⟨row, hrow, hcarried⟩ := readOption_eq_ok_iff.1 hoffer
  have hdescribes := readCatalogRow_eq_ok_iff.1 hrow
  have hschedule : offer.fee = ⟨o.feePercentage, offer.fee.minimum⟩ := by
    rw [hdescribes.feePercentage, ← hcarried.percentage]
  have hfee : readAmount o.minFee = .ok ⟨offer.fee.minimum⟩ := by
    rw [readAmount_eq_ok_iff, hdescribes.minFee]
    exact hcarried.minimum
  simp only [readFee, bind_eq_ok_iff, required_eq_ok_iff]
  refine ⟨units, hunits, _, hfee, amount, hamount, ?_⟩
  rw [hschedule]
  rfl

/-! ### What is printed -/

/-- An offer that is shown with a fee is an offer and an amount that were both read. -/
theorem optionReply_of_refusal_eq_none (h : (optionReply o).refusal = none)
    (hunits : o.amount = some units) :
    ∃ offer amount, o.readOption = .ok offer ∧ Options.readAmount units = .ok amount ∧
      (optionReply o).printed = offerText offer ++ feeLine (offer.fee.fee amount) := by
  unfold optionReply at h ⊢
  cases hoffer : o.readOption with
  | error r => simp [hoffer, Reply.refused] at h
  | ok offer =>
    cases hamount : Options.readAmount units with
    | error r => simp [hoffer, hunits, hamount] at h
    | ok amount => exact ⟨offer, amount, rfl, rfl, by simp [hunits, hamount, Reply.done]⟩

/-- The lines of an offer print what stands in its row. -/
theorem offerText_of_carriedBy {row : CatalogRow} (h : row.CarriedBy offer) :
    offerText offer =
      "id: " ++ Decimal.signedText row.id.toInt ++ "\n"
        ++ "title: " ++ row.title ++ "\n"
        ++ "trade up to: " ++ unitsText row.tradeUpTo ++ "\n"
        ++ "deposit: " ++ unitsText row.minDeposit ++ " - " ++ unitsText row.maxDeposit ++ "\n"
        ++ "leverage: " ++ row.leverage.text ++ "\n" := by
  unfold offerText
  rw [h.id, h.title, h.leverage, Amount.text_eq_unitsText h.tradeUpTo,
    Amount.text_eq_unitsText h.minDeposit, Amount.text_eq_unitsText h.maxDeposit]

/-- The text ends with this line. -/
def IsLastLine (line text : String) : Prop :=
  '\n' ∉ line.toList ∧ ∃ before, text = before ++ "\n" ++ line ++ "\n"

theorem feeLine_eq (fee : Amount) :
    feeLine fee = "fee: " ++ Decimal.text fee.units.toNat ++ " sats" ++ "\n" := by
  rw [feeLine, Amount.text, ← String.append_assoc]

theorem newline_notMem_fee (n : Nat) :
    '\n' ∉ ("fee: " ++ Decimal.text n ++ " sats").toList := by
  have hdigits : '\n' ∉ Decimal.digits n := fun h =>
    absurd (Decimal.isDigit_of_mem_digits h) (by decide)
  simp [hdigits]

theorem isLastLine_feeLine (before : String) (fee : Amount) :
    IsLastLine ("fee: " ++ Decimal.text fee.units.toNat ++ " sats")
      (before ++ "\n" ++ feeLine fee) := by
  refine ⟨newline_notMem_fee _, before, ?_⟩
  rw [feeLine_eq, ← String.append_assoc]

/-! ### Runs -/

/-- The fee alone is printed as a number on a line of its own. -/
theorem run_fee_of_readFee {settings : DisplaySettings} {schedule : FeeSchedule}
    (hsettings : o.readSettings = .ok settings) (hfee : o.readFee = .ok (schedule, amount)) :
    ∃ outcome, run "fee" o = .ok outcome ∧ outcome.status = 0 ∧
      outcome.stdout = Decimal.text (schedule.fee amount).units.toNat ++ "\n" := by
  have hquote : replyTo "fee" settings o =
      .ok (.done (Decimal.text (schedule.fee amount).units.toNat ++ "\n")) := by
    change Except.ok (feeReply o) = _
    rw [feeReply, hfee]
    rfl
  exact exists_run_of_done (by decide) hsettings hquote

/-- **An offer quotes the fee that is quoted alone.** A run that shows an offer with the fee on an
amount prints the numbers of the offer as they were given, and below them the fee that the option of
the catalog row asks for on the amount. The run on the same options that asks for the fee alone
succeeds as well, and prints the same number. -/
theorem run_option_quotes_fee {outcome : Outcome} (hrun : run "option" o = .ok outcome)
    (hstatus : outcome.status = 0) (hunits : o.amount = some units) :
    ∃ row offer amount n, o.DescribesOffer row ∧ LiquidityOption.ofRow row = .ok offer ∧
      Amount.ofUnits units = .ok amount ∧ n = (offer.fee.fee amount).units.toNat ∧
      outcome.stdout =
        "id: " ++ Decimal.signedText row.id.toInt ++ "\n"
          ++ "title: " ++ row.title ++ "\n"
          ++ "trade up to: " ++ unitsText row.tradeUpTo ++ "\n"
          ++ "deposit: " ++ unitsText row.minDeposit ++ " - " ++ unitsText row.maxDeposit ++ "\n"
          ++ "leverage: " ++ row.leverage.text ++ "\n"
          ++ "fee: " ++ Decimal.text n ++ " sats" ++ "\n" ∧
      IsLastLine ("fee: " ++ Decimal.text n ++ " sats") outcome.stdout ∧
      ∃ quote, run "fee" o = .ok quote ∧ quote.status = 0 ∧
        quote.stdout = Decimal.text n ++ "\n" := by
  obtain ⟨settings, reply, hsettings, hreply, hnone, hprinted⟩ :=
    exists_reply_of_status (by decide) hrun hstatus
  cases hreply.symm.trans (rfl : replyTo "option" settings o = .ok (optionReply o))
  obtain ⟨offer, amount, hoffer, hamount, hlines⟩ := optionReply_of_refusal_eq_none hnone hunits
  obtain ⟨row, hrow, hcarried⟩ := Options.readOption_eq_ok_iff.1 hoffer
  have hfee := Options.readFee_of_readOption hoffer hunits hamount
  have hstdout := hprinted.trans (hlines.trans (by rw [offerText_of_carriedBy hcarried]))
  refine ⟨row, offer, amount, _, Options.readCatalogRow_eq_ok_iff.1 hrow,
    LiquidityOption.ofRow_eq_ok_iff.2 hcarried, mapError_eq_ok_iff.1 hamount, rfl, ?_, ?_,
    run_fee_of_readFee hsettings hfee⟩
  · rw [hstdout, feeLine_eq]
    simp only [String.append_assoc]
  · rw [hstdout]
    exact isLastLine_feeLine _ _

/-- An offer whose title ends in a line that looks like a fee. -/
def misleadingOffer : Options where
  amount := some 1000
  id := some 7
  title := "Pro\nfee: 0 sats"
  tradeUpTo := some 1000000
  minDeposit := some 10000
  maxDeposit := some 500000
  feePercentage := ⟨0x3ff199999999999a⟩
  minFee := 5

/-- Both quotes for it are 11, which is 1.1 percent of 1000 and above the minimum. -/
theorem run_option_quotes_fee_misleading :
    ∃ outcome, run "option" misleadingOffer = .ok outcome ∧ outcome.status = 0 ∧
      misleadingOffer.amount = some 1000 ∧
      IsLastLine ("fee: " ++ Decimal.text 11 ++ " sats") outcome.stdout ∧
      ∃ quote, run "fee" misleadingOffer = .ok quote ∧ quote.status = 0 ∧
        quote.stdout = Decimal.text 11 ++ "\n" := by
  have hrun : run "option" misleadingOffer =
      .ok (.ofReply {} (optionReply misleadingOffer)) := rfl
  obtain ⟨row, offer, amount, n, hrow, hoffer, hamount, hn, -, hlast, hquote⟩ :=
    run_option_quotes_fee hrun rfl (rfl : misleadingOffer.amount = some 1000)
  have hfee : n = 11 := by
    cases hamount
    obtain ⟨id, title, trade, least, most, percentage, minimum, leverage⟩ := row
    obtain ⟨⟨⟩, rfl, ⟨⟩, ⟨⟩, ⟨⟩, rfl, rfl, rfl⟩ := hrow
    cases hoffer
    rw [hn]
    decide +kernel
  rw [hfee] at hlast hquote
  exact ⟨_, hrun, rfl, rfl, hlast, hquote⟩

end CommandLine

end WalletLedger
