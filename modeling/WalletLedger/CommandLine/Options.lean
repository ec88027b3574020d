import WalletLedger.Binary64
import WalletLedger.Settings

/-!
# Options

Each option is given at most once on the command line and at most once in a configuration file.
`Given` holds what is given in one of these places, and `Given.or` puts two of them together, of
which the first wins. The commands read `Options`, in which every option with a declared default has
a value. Times are in milliseconds since the beginning of 1970, and amounts and fees in satoshis
unless their names say otherwise.
-/

namespace WalletLedger.CommandLine

/-- What keeps a configuration file that was named from being used: it cannot be opened, or what
stands in it are no settings. -/
inductive ConfigFault where
  | unopened (path : String)
  | malformed (path reason : String)
  deriving DecidableEq

/-- What is told about such a file. -/
def ConfigFault.message : ConfigFault → String
  | .unopened path => "unable to open config file " ++ path
  | .malformed path reason => "invalid config file " ++ path ++ ": " ++ reason

/-- The options of a run. Those with a default have a value, the others may be absent. -/
structure Options where
  configFault : Option ConfigFault := none
  display : DisplayOptions := {}
  flow : Option String := none
  status : Option String := none
  amount : Option Int64 := none
  timestamp : Int64 := 0
  kind : Option String := none
  feeMsats : Option Int64 := none
  expiry : Option Int64 := none
  invoice : Option String := none
  description : String := ""
  paymentHash : Option String := none
  preimage : Option String := none
  orderId : Option String := none
  txid : Option String := none
  confirmations : Int64 := 0
  feeSats : Option Int64 := none
  id : Option Int64 := none
  title : String := ""
  tradeUpTo : Option Int64 := none
  minDeposit : Option Int64 := none
  maxDeposit : Option Int64 := none
  feePercentage : Binary64 := .zero
  minFee : Int64 := 0
  leverage : Binary64 := .one
  deriving DecidableEq

/-- What is given in one place. Besides the options of a run there are the call for help, the name
of the command and the path of a configuration file. -/
structure Given where
  help : Bool := false
  command : Option String := none
  config : Option String := none
  display : DisplayOptions := {}
  flow : Option String := none
  status : Option String := none
  amount : Option Int64 := none
  timestamp : Option Int64 := none
  kind : Option String := none
  feeMsats : Option Int64 := none
  expiry : Option Int64 := none
  invoice : Option String := none
  description : Option String := none
  paymentHash : Option String := none
  preimage : Option String := none
  orderId : Option String := none
  txid : Option String := none
  confirmations : Option Int64 := none
  feeSats : Option Int64 := none
  id : Option Int64 := none
  title : Option String := none
  tradeUpTo : Option Int64 := none
  minDeposit : Option Int64 := none
  maxDeposit : Option Int64 := none
  feePercentage : Option Binary64 := none
  minFee : Option Int64 := none
  leverage : Option Binary64 := none
  deriving DecidableEq

namespace Given

/-- What is given in two places together. Where both give an option, the first one wins. -/
def or (g h : Given) : Given where
  help := g.help || h.help
  command := g.command.or h.command
  config := g.config.or h.config
  display := ⟨g.display.network.or h.display.network, g.display.logLevel.or h.display.logLevel⟩
  flow := g.flow.or h.flow
  status := g.status.or h.status
  amount := g.amount.or h.amount
  timestamp := g.timestamp.or h.timestamp
  kind := g.kind.or h.kind
  feeMsats := g.feeMsats.or h.feeMsats
  expiry := g.expiry.or h.expiry
  invoice := g.invoice.or h.invoice
  description := g.description.or h.description
  paymentHash := g.paymentHash.or h.paymentHash
  preimage := g.preimage.or h.preimage
  orderId := g.orderId.or h.orderId
  txid := g.txid.or h.txid
  confirmations := g.confirmations.or h.confirmations
  feeSats := g.feeSats.or h.feeSats
  id := g.id.or h.id
  title := g.title.or h.title
  tradeUpTo := g.tradeUpTo.or h.tradeUpTo
  minDeposit := g.minDeposit.or h.minDeposit
  maxDeposit := g.maxDeposit.or h.maxDeposit
  feePercentage := g.feePercentage.or h.feePercentage
  minFee := g.minFee.or h.minFee
  leverage := g.leverage.or h.leverage

/-- The options of a run, with the declared defaults for what is not given. -/
def options (g : Given) : Options :=
  let declared : Options := {}
  { display := g.display
    flow := g.flow
    status := g.status
    amount := g.amount
    timestamp := g.timestamp.getD declared.timestamp
    kind := g.kind
    feeMsats := g.feeMsats
    expiry := g.expiry
    invoice := g.invoice
    description := g.description.getD declared.description
    paymentHash := g.paymentHash
    preimage := g.preimage
    orderId := g.orderId
    txid := g.txid
    confirmations := g.confirmations.getD declared.confirmations
    feeSats := g.feeSats
    id := g.id
    title := g.title.getD declared.title
    tradeUpTo := g.tradeUpTo
    minDeposit := g.minDeposit
    maxDeposit := g.maxDeposit
    feePercentage := g.feePercentage.getD declared.feePercentage
    minFee := g.minFee.getD declared.minFee
    leverage := g.leverage.getD declared.leverage }

end Given

end WalletLedger.CommandLine
