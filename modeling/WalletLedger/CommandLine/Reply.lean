import WalletLedger.Binary64.Text
import WalletLedger.CommandLine.Request
import WalletLedger.View

/-!
# What the commands print

Each command prints the lines of its result. An offer is printed first and the amount on which its
fee is asked for is looked at afterwards, so a wrong amount is reported after the lines of the
offer.
-/

namespace WalletLedger.CommandLine

/-- What a command printed, and why it stopped if it did. -/
structure Reply where
  printed : String
  refusal : Option Refusal
  deriving DecidableEq

namespace Reply

/-- All lines of a result. -/
def done (text : String) : Reply := ⟨text, none⟩

/-- A refusal before anything was printed. -/
def refused (r : Refusal) : Reply := ⟨"", some r⟩

/-- The lines for what the options ask for, unless it is refused. -/
def ofRequest {α : Type} (request : Except Refusal α) (text : α → String) : Reply :=
  match request with
  | .ok value => done (text value)
  | .error r => refused r

end Reply

/-- The sign and the words for a movement. -/
def movementText (flow : Flow) (status : Status) : Except Breach String :=
  (Movement.classify (.listed flow) (.listed status)).map fun c =>
    Decimal.signedText c.sign ++ " " ++ c.verb ++ "\n"

/-- The lines of an offer. -/
def offerText (o : LiquidityOption) : String :=
  "id: " ++ Decimal.signedText o.id.toInt ++ "\n"
    ++ "title: " ++ o.title ++ "\n"
    ++ "trade up to: " ++ o.tradeUpTo.text ++ "\n"
    ++ "deposit: " ++ o.minDeposit.text ++ " - " ++ o.maxDeposit.text ++ "\n"
    ++ "leverage: " ++ o.leverage.text ++ "\n"

/-- The line for the fee on an amount. -/
def feeLine (fee : Amount) : String := "fee: " ++ fee.text ++ "\n"

/-- The picture of an entry, with the direction of an arrow. -/
def iconText (e : Entry) : Except Breach String :=
  if e.kind.icon = .directionalArrow then
    (Movement.arrow e.flow).map fun arrow => Enumeration.name e.kind.icon ++ "/" ++ arrow.name
  else .ok (Enumeration.name e.kind.icon)

/-- A row of the detail sheet. A transaction is followed by its page. -/
def rowText (network : Network) (r : Row) : Except Breach String :=
  if r.hint = some .transactionId then
    (Explorer.transactionPage (.listed network) r.value).map fun page =>
      r.label ++ ": " ++ r.value ++ " <" ++ page ++ ">\n"
  else .ok (r.label ++ ": " ++ r.value ++ "\n")

/-- The rows of the detail sheet. -/
def rowTexts (network : Network) : List Row → Except Breach String
  | [] => .ok ""
  | r :: rest => do
    let first ← rowText network r
    let others ← rowTexts network rest
    return first ++ others

/-- The lines of an entry. -/
def entryText (network : Network) (e : Entry) : Except Breach String := do
  let icon ← iconText e
  let headline ← e.headline
  let units ← e.signedUnits
  let rows ← rowTexts network e.historyRows
  return e.title ++ " (" ++ e.chainLabel ++ ")\n"
    ++ "icon: " ++ icon ++ "\n"
    ++ headline ++ " " ++ Decimal.signedText units ++ " sats\n"
    ++ rows

/-- The words for the movement that the options name. -/
def classifyReply (o : Options) : Except Breach Reply :=
  match o.readMovement with
  | .ok (flow, status) => (movementText flow status).map Reply.done
  | .error r => .ok (.refused r)

/-- The fee that the options ask for, as a number alone. -/
def feeReply (o : Options) : Reply :=
  .ofRequest o.readFee fun request =>
    Decimal.text (request.1.fee request.2).units.toNat ++ "\n"

/-- The offer that the options describe, and the fee on an amount if one is given. -/
def optionReply (o : Options) : Reply :=
  match o.readOption with
  | .error r => .refused r
  | .ok offer =>
    match o.amount with
    | none => .done (offerText offer)
    | some units =>
      match Options.readAmount units with
      | .error r => ⟨offerText offer, some r⟩
      | .ok amount => .done (offerText offer ++ feeLine (offer.fee.fee amount))

/-- The entry that the options describe. -/
def entryReply (network : Network) (o : Options) : Except Breach Reply :=
  match o.readEntry with
  | .ok e => (entryText network e).map Reply.done
  | .error r => .ok (.refused r)

/-- What a command replies. -/
def Command.reply (command : Command) (settings : DisplaySettings) (o : Options) :
    Except Breach Reply :=
  match command with
  | .classify => classifyReply o
  | .fee => .ok (feeReply o)
  | .option => .ok (optionReply o)
  | .entry => entryReply settings.network o

end WalletLedger.CommandLine
