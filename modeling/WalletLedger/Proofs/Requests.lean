import WalletLedger.Proofs.Descriptions

/-!
# What the commands look at

Each command reads its options in a fixed order. Here this order is written down as a list of checks
for each command, with the code and the detail that are reported, and the readers of the command
line are shown to follow these lists (`Options.follows_readMovement`, `Options.follows_readFee`,
`Options.follows_readOption`, `Options.follows_readEntry`).
-/

namespace WalletLedger.CommandLine

/-- What is reported of a check that does not hold: what is wrong, in a word, and where, which is
empty if there is nothing to add. -/
structure Report where
  code : String
  detail : String
  deriving DecidableEq

/-- The line in which it is reported. -/
def Report.text (r : Report) : String :=
  "error: " ++ r.code ++ (if r.detail = "" then "" else " (" ++ r.detail ++ ")") ++ "\n"

/-- The report of a refusal. -/
def Refusal.report (r : Refusal) : Report := ⟨r.code, r.detail⟩

theorem Refusal.text_report (r : Refusal) : r.report.text = r.line := rfl

/-! ### The checks of each command -/

/-- The check that an option of this name is given. -/
def checkGiven {α : Type} (name : String) (value : Option α) : Check Report :=
  ⟨value.isSome, ⟨"missing_option", "--" ++ name⟩⟩

/-- The check that a name, if it is given, is one of the table. -/
def checkListed {α : Type} (code detail : String) (t : NameTable α) (name : Option String) :
    Check Report :=
  ⟨name.all fun name => name ∈ t.names, ⟨code, detail⟩⟩

/-- The check that of some numbers those that are given are not negative. -/
def checkNonNegative (code : String) (numbers : List (Option Int64)) : Check Report :=
  ⟨numbers.all fun number => number.all fun n => 0 ≤ n.toInt, ⟨code, ""⟩⟩

namespace Options

/-- What is looked at to put a movement into words. -/
def classifyChecks (o : Options) : List (Check Report) :=
  [checkGiven "flow" o.flow, checkListed "unknown_flow" (o.flow.getD "") Flow.table o.flow,
    checkGiven "status" o.status,
    checkListed "unknown_status" (o.status.getD "") Status.table o.status]

/-- What is looked at to reckon a fee. -/
def feeChecks (o : Options) : List (Check Report) :=
  [checkGiven "amount" o.amount, checkNonNegative "invalid_amount" [some o.minFee, o.amount]]

/-- What is looked at to describe an offer. -/
def offerChecks (o : Options) : List (Check Report) :=
  [checkGiven "id" o.id, checkGiven "trade-up-to" o.tradeUpTo,
    checkGiven "min-deposit" o.minDeposit, checkGiven "max-deposit" o.maxDeposit,
    checkNonNegative "invalid_amount" [o.tradeUpTo, o.minDeposit, o.maxDeposit, some o.minFee]]

/-- What is looked at to show an offer, and the fee on an amount if there is one. -/
def optionChecks (o : Options) : List (Check Report) :=
  o.offerChecks ++ [checkNonNegative "invalid_amount" [o.amount]]

/-- The options that a kind of entry must have. -/
def kindChecks (o : Options) : Kind → List (Check Report)
  | .lightningPayment => [checkGiven "payment-hash" o.paymentHash]
  | .trade => [checkGiven "order-id" o.orderId]
  | .orderMatchingFee => [checkGiven "order-id" o.orderId, checkGiven "payment-hash" o.paymentHash]
  | .jitChannelOpenFee => [checkGiven "txid" o.txid]
  | .onChainPayment => [checkGiven "txid" o.txid]

/-- What is looked at to describe a record. -/
def recordChecks (o : Options) : List (Check Report) :=
  [checkGiven "flow" o.flow, checkGiven "status" o.status, checkGiven "amount" o.amount,
    checkGiven "kind" o.kind,
    checkListed "unknown_kind" (o.kind.getD "") Kind.table o.kind] ++ o.kind?.elim [] o.kindChecks

/-- The number of confirmations is one and fits in 32 bits, if it matters. -/
def confirmationsFit (o : Options) : Bool :=
  o.kind? = some .onChainPayment →
    0 ≤ o.confirmations.toInt ∧ o.confirmations.toInt ≤ 4294967295

/-- What is looked at to show an entry. -/
def entryChecks (o : Options) : List (Check Report) :=
  o.recordChecks ++
    [checkListed "unknown_flow" "" Flow.table o.flow,
      checkListed "unknown_status" "" Status.table o.status,
      checkNonNegative "invalid_timestamp" [some o.timestamp],
      checkNonNegative "invalid_amount" [o.amount],
      ⟨o.confirmationsFit, ⟨"invalid_confirmations", ""⟩⟩]

end Options

/-! ### Single options -/

/-- A required option is checked for being given. -/
theorem follows_required {α : Type} (name : String) (o : Option α) :
    Follows Refusal.report (required name o) [checkGiven name o] := by
  cases o <;> rfl

/-- A lookup is a check that refuses with a reason of its own. -/
theorem follows_orRefuse {α : Type} {refusal : Refusal} {o : Option α} {holds : Bool}
    (h : o.isSome = holds) :
    Follows Refusal.report (orRefuse refusal o) [⟨holds, refusal.report⟩] := by
  subst h
  cases o <;> rfl

theorem checkNonNegative_single (code : String) (n : Int64) :
    checkNonNegative code [some n] = ⟨0 ≤ n.toInt, ⟨code, ""⟩⟩ := by
  simp [checkNonNegative]

/-- Numbers that are looked at one after the other may be looked at together. -/
theorem first_checkNonNegative (code : String) (numbers : List (Option Int64)) :
    Check.first (numbers.map fun number => checkNonNegative code [number]) =
      Check.first [checkNonNegative code numbers] := by
  rw [checkNonNegative, ← Check.first_map_same]
  simp only [checkNonNegative, List.all_cons, List.all_nil, Bool.and_true]

namespace Options

variable {o : Options}

theorem follows_readAmount (units : Int64) :
    Follows Refusal.report (readAmount units) [checkNonNegative "invalid_amount" [some units]] := by
  rw [checkNonNegative_single]
  exact .mapError ((Amount.follows_ofUnits units).told fun e => Refusal.report (.amount e))

theorem follows_readFlow (o : Options) :
    Follows Refusal.report o.readFlow
      [checkGiven "flow" o.flow,
        checkListed "unknown_flow" (o.flow.getD "") Flow.table o.flow] := by
  refine .step (follows_required _ _) fun name hname => ?_
  rw [required_eq_ok_iff.1 hname]
  exact follows_orRefuse NameTable.isSome_value?_eq

theorem follows_readStatus (o : Options) :
    Follows Refusal.report o.readStatus
      [checkGiven "status" o.status,
        checkListed "unknown_status" (o.status.getD "") Status.table o.status] := by
  refine .step (follows_required _ _) fun name hname => ?_
  rw [required_eq_ok_iff.1 hname]
  exact follows_orRefuse NameTable.isSome_value?_eq

theorem follows_readMovement (o : Options) :
    Follows Refusal.report o.readMovement o.classifyChecks := by
  refine .append o.follows_readFlow fun flow _ => ?_
  exact .map o.follows_readStatus _

/-- The minimum and the amount are looked at one after the other and refused for the same reason. -/
theorem follows_readFee (o : Options) : Follows Refusal.report o.readFee o.feeChecks := by
  refine .step (follows_required _ _) fun units hunits => ?_
  rw [required_eq_ok_iff.1 hunits]
  refine .congr (first_checkNonNegative _ [some o.minFee, some units]) ?_
  refine .step (follows_readAmount _) fun minimum _ => ?_
  exact .map (follows_readAmount _) _

/-! ### Offers -/

theorem follows_readCatalogRow (o : Options) :
    Follows Refusal.report o.readCatalogRow
      [checkGiven "id" o.id, checkGiven "trade-up-to" o.tradeUpTo,
        checkGiven "min-deposit" o.minDeposit, checkGiven "max-deposit" o.maxDeposit] := by
  refine .step (follows_required _ _) fun id _ => ?_
  refine .step (follows_required _ _) fun tradeUpTo _ => ?_
  refine .step (follows_required _ _) fun minDeposit _ => ?_
  exact .map (follows_required _ _) _

/-- An offer is looked at for what must be given and then for numbers that are negative. -/
theorem follows_readOption (o : Options) : Follows Refusal.report o.readOption o.offerChecks := by
  refine .append o.follows_readCatalogRow fun row hrow => .mapError ?_
  have hoffer := readCatalogRow_eq_ok_iff.1 hrow
  have h := (Catalog.follows_ofRow row).told fun e => Refusal.report (.amount e)
  rw [hoffer.tradeUpTo, hoffer.minDeposit, hoffer.maxDeposit, hoffer.minFee]
  exact h

/-! ### Entries -/

theorem follows_readPayload (o : Options) (kind : Kind) :
    Follows Refusal.report (o.readPayload kind) (o.kindChecks kind) := by
  cases kind with
  | lightningPayment => exact .map (follows_required _ _) _
  | trade => exact .map (follows_required _ _) _
  | orderMatchingFee =>
    refine .step (follows_required _ _) fun orderId _ => ?_
    exact .map (follows_required _ _) _
  | jitChannelOpenFee => exact .map (follows_required _ _) _
  | onChainPayment => exact .map (follows_required _ _) _

/-- The confirmations of a record are those of the options, and only one kind of record has any. -/
theorem confirmationsFit_of_describesPayload {raw : Payload LightningRecord OnChainRecord}
    (h : o.DescribesPayload raw) : o.confirmationsFit = Record.confirmationsFit raw := by
  rw [confirmationsFit, kind?_of_describesPayload h]
  cases raw with
  | onChain r => simp [Record.confirmationsFit, Payload.kind, h.2.2.1]
  | _ => simp [Record.confirmationsFit, Payload.kind]

theorem follows_readRecord (o : Options) :
    Follows Refusal.report o.readRecord o.recordChecks := by
  refine .step (follows_required _ _) fun flow _ => ?_
  refine .step (follows_required _ _) fun status _ => ?_
  refine .step (follows_required _ _) fun amount _ => ?_
  refine .step (follows_required _ _) fun name hname => ?_
  rw [kind?, required_eq_ok_iff.1 hname, Option.bind_some]
  refine .step (follows_orRefuse NameTable.isSome_value?_eq) fun kind hkind => ?_
  rw [orRefuse_eq_ok_iff.1 hkind, Option.elim_some]
  exact .map (o.follows_readPayload kind) _

/-- An entry is looked at twice: the options must describe a record, and the record must make an
entry. -/
theorem follows_readEntry (o : Options) : Follows Refusal.report o.readEntry o.entryChecks := by
  refine .append o.follows_readRecord fun r hr => .mapError ?_
  have hrecord := readRecord_eq_ok_iff.1 hr
  have h := r.follows_toEntry.told fun e => Refusal.report (.record e)
  rw [hrecord.flow, hrecord.status, hrecord.amount, hrecord.timestamp, checkNonNegative_single,
    checkNonNegative_single, confirmationsFit_of_describesPayload hrecord.payload]
  exact h

end Options

end WalletLedger.CommandLine
