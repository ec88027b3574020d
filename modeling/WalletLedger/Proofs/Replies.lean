import WalletLedger.Proofs.EntryLines
import WalletLedger.Proofs.Requests

/-!
# What the commands reply

Whatever the options are, a command replies (`Command.exists_reply`): what its readers let through
can be shown without a breach. A reply is refused for the first of the command's checks that does
not hold, and has printed nothing then, unless it is the amount of an offer that is refused
(`Reply.Fits`).
-/

namespace WalletLedger.CommandLine

/-! ### What can be shown -/

theorem movementText_eq {flow : Flow} {status : Status} {c : Classification}
    (hc : Movement.classify (.listed flow) (.listed status) = .ok c) :
    movementText flow status = .ok (Decimal.signedText c.sign ++ " " ++ c.verb ++ "\n") := by
  rw [movementText, hc]
  rfl

/-- There are words for every movement that options can name. -/
theorem exists_movementText_eq_ok (flow : Flow) (status : Status) :
    ∃ text, movementText flow status = .ok text := by
  obtain ⟨c, hc⟩ := Movement.exists_classify_eq_ok ⟨flow, rfl⟩ ⟨status, rfl⟩
  exact ⟨_, movementText_eq hc⟩

theorem wellFormed_of_readEntry {o : Options} {e : Entry} (h : o.readEntry = .ok e) :
    e.WellFormed := by
  obtain ⟨r, -, hr⟩ := bind_eq_ok_iff.1 h
  exact Entry.wellFormed_of_toEntry (mapError_eq_ok_iff.1 hr)

/-! ### Replies -/

/-- What a command looks at. -/
def Command.checks (o : Options) : Command → List (Check Report)
  | .classify => o.classifyChecks
  | .fee => o.feeChecks
  | .option => o.optionChecks
  | .entry => o.entryChecks

/-- The options describe an offer, and then give a negative amount to reckon the fee on. -/
structure Options.OfferWithoutFee (o : Options) (offer : LiquidityOption) : Prop where
  offer : o.readOption = .ok offer
  amount : ∃ units, o.amount = some units ∧ units.toInt < 0

/-- How a reply to a command stands to what the command looks at. It is refused for the first check
that does not hold, and a refused reply has printed nothing, or else an offer. -/
structure Reply.Fits (reply : Reply) (command : Command) (o : Options) : Prop where
  refusal : reply.refusal.map Refusal.report = Check.first (command.checks o)
  printed : reply.refusal = none ∨ reply.printed = "" ∨
    command = .option ∧ ∃ offer, o.OfferWithoutFee offer ∧ reply.printed = offerText offer

/-- A reply that prints what was read, or else refuses, is refused for the first check that the
reader finds to fail. -/
theorem fits_ofRequest {α : Type} {request : Except Refusal α} (text : α → String)
    {command : Command} {o : Options}
    (h : Follows Refusal.report request (command.checks o)) :
    (Reply.ofRequest request text).Fits command o := by
  cases request with
  | error r => exact ⟨h.symm, Or.inr (Or.inl rfl)⟩
  | ok value => exact ⟨h.symm, Or.inl rfl⟩

theorem exists_classifyReply (o : Options) :
    ∃ text, classifyReply o = .ok (.ofRequest o.readMovement text) := by
  unfold classifyReply
  cases o.readMovement with
  | error r => exact ⟨fun _ => "", rfl⟩
  | ok movement =>
    obtain ⟨text, htext⟩ := exists_movementText_eq_ok movement.1 movement.2
    exact ⟨fun _ => text, by simp only [htext]; rfl⟩

theorem exists_entryReply (network : Network) (o : Options) :
    ∃ text, entryReply network o = .ok (.ofRequest o.readEntry text) := by
  unfold entryReply
  cases he : o.readEntry with
  | error r => exact ⟨fun _ => "", rfl⟩
  | ok e =>
    obtain ⟨text, htext⟩ := exists_entryText_eq_ok network (wellFormed_of_readEntry he)
    exact ⟨fun _ => text, by simp only [htext]; rfl⟩

theorem readAmount_of_neg {units : Int64} (h : units.toInt < 0) :
    Options.readAmount units = .error (.amount .invalidAmount) := by
  rw [Options.readAmount, Amount.ofUnits_eq_error_iff.2 ⟨rfl, h⟩]
  rfl

theorem exists_readAmount_eq_ok {units : Int64} (h : ¬units.toInt < 0) :
    ∃ amount, Options.readAmount units = .ok amount := by
  cases hunits : Amount.ofUnits units with
  | error e => exact absurd (Amount.ofUnits_eq_error_iff.1 hunits).2 h
  | ok amount => exact ⟨amount, by rw [Options.readAmount, mapError_eq_ok_iff, hunits]⟩

/-- The offer is printed and its amount refused. -/
theorem optionReply_of_offerWithoutFee {o : Options} {offer : LiquidityOption}
    (h : o.OfferWithoutFee offer) :
    optionReply o = ⟨offerText offer, some (.amount .invalidAmount)⟩ := by
  obtain ⟨units, hamount, hneg⟩ := h.amount
  simp only [optionReply, h.offer, hamount, readAmount_of_neg hneg]

/-- The amount for the fee is looked at when the offer is printed already. -/
theorem fits_optionReply (o : Options) : (optionReply o).Fits .option o := by
  have hoffer := o.follows_readOption
  have hfirst : Check.first (Command.checks o .option) =
      (Check.first o.offerChecks).or (Check.first [checkNonNegative "invalid_amount" [o.amount]]) :=
    Check.first_append _ _
  cases hread : o.readOption with
  | error r =>
    have hreply : optionReply o = .refused r := by simp only [optionReply, hread]
    rw [hread, Follows.error_iff] at hoffer
    rw [hoffer, Option.some_or] at hfirst
    rw [hreply]
    exact ⟨hfirst.symm, Or.inr (Or.inl rfl)⟩
  | ok offer =>
    rw [hread, Follows.ok_iff] at hoffer
    rw [hoffer, Option.none_or] at hfirst
    cases hamount : o.amount with
    | none =>
      have hreply : optionReply o = .done (offerText offer) := by
        simp only [optionReply, hread, hamount]
      rw [hamount] at hfirst
      rw [hreply]
      exact ⟨hfirst.symm, Or.inl rfl⟩
    | some units =>
      have hunits := Options.follows_readAmount units
      rw [← hamount] at hunits
      by_cases hneg : units.toInt < 0
      · have hlate : o.OfferWithoutFee offer := ⟨hread, units, hamount, hneg⟩
        rw [readAmount_of_neg hneg, Follows.error_iff, ← hfirst] at hunits
        rw [optionReply_of_offerWithoutFee hlate]
        exact ⟨hunits.symm, Or.inr (Or.inr ⟨rfl, offer, hlate, rfl⟩)⟩
      · obtain ⟨amount, hfee⟩ := exists_readAmount_eq_ok hneg
        have hreply : optionReply o =
            .done (offerText offer ++ feeLine (offer.fee.fee amount)) := by
          simp only [optionReply, hread, hamount, hfee]
        rw [hfee, Follows.ok_iff, ← hfirst] at hunits
        rw [hreply]
        exact ⟨hunits.symm, Or.inl rfl⟩

/-- Every command replies, and no breach is met on the way. -/
theorem Command.exists_reply (command : Command) (settings : DisplaySettings) (o : Options) :
    ∃ reply, command.reply settings o = .ok reply ∧ reply.Fits command o := by
  cases command with
  | classify =>
    obtain ⟨text, htext⟩ := exists_classifyReply o
    exact ⟨_, htext, fits_ofRequest text o.follows_readMovement⟩
  | fee => exact ⟨_, rfl, fits_ofRequest _ o.follows_readFee⟩
  | option => exact ⟨_, rfl, fits_optionReply o⟩
  | entry =>
    obtain ⟨text, htext⟩ := exists_entryReply settings.network o
    exact ⟨_, htext, fits_ofRequest text o.follows_readEntry⟩

end WalletLedger.CommandLine
