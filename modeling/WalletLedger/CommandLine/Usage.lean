import WalletLedger.Binary64.Text
import WalletLedger.CommandLine.Options
import WalletLedger.Decimal

/-!
# The overview of commands and options

Whoever asks for help, or names no command, is shown how the commands are called and a table of all
options. An option stands in the table with what follows its name, the default in brackets, and a
description that begins in the same column for all of them.
-/

namespace WalletLedger.CommandLine

/-- An option as it is declared: its name and its letter, what follows it, and what it is for. -/
structure Declaration where
  name : String
  parameter : String
  description : String
  letter : String := ""
  deriving DecidableEq

namespace Declaration

/-- What follows an option that has a default. -/
def parameterWithDefault (default : String) : String := "arg (=" ++ default ++ ")"

/-- All options in the order in which they are listed. An empty default is not shown. -/
def all : List Declaration :=
  let declared : Options := {}
  let display := declared.display.filled
  let count (n : Int64) := parameterWithDefault (Decimal.signedText n.toInt)
  [⟨"help", "", "show help", "h"⟩,
    ⟨"command", "arg", "classify|fee|option|entry", ""⟩,
    ⟨"config", "arg", "INI-style config file", ""⟩,
    ⟨"flow", "arg", "Inbound|Outbound", ""⟩,
    ⟨"status", "arg", "Pending|Confirmed|Expired|Failed", ""⟩,
    ⟨"amount", "arg", "amount in sats", ""⟩,
    ⟨"timestamp", count declared.timestamp, "entry timestamp ms", ""⟩,
    ⟨"kind", "arg", "ledger entry kind", ""⟩,
    ⟨"fee-msats", "arg", "lightning fee in msats", ""⟩,
    ⟨"expiry", "arg", "invoice expiry ms", ""⟩,
    ⟨"invoice", "arg", "lightning invoice", ""⟩,
    ⟨"description", "arg", "invoice description", ""⟩,
    ⟨"payment-hash", "arg", "payment hash hex", ""⟩,
    ⟨"preimage", "arg", "payment preimage hex", ""⟩,
    ⟨"order-id", "arg", "order id", ""⟩,
    ⟨"txid", "arg", "transaction id hex", ""⟩,
    ⟨"confirmations", count declared.confirmations, "on-chain confirmations", ""⟩,
    ⟨"fee-sats", "arg", "on-chain fee in sats", ""⟩,
    ⟨"id", "arg", "liquidity option id", ""⟩,
    ⟨"title", "arg", "liquidity option title", ""⟩,
    ⟨"trade-up-to", "arg", "trade up to sats", ""⟩,
    ⟨"min-deposit", "arg", "minimum deposit sats", ""⟩,
    ⟨"max-deposit", "arg", "maximum deposit sats", ""⟩,
    ⟨"fee-percentage", parameterWithDefault declared.feePercentage.text, "fee percentage", ""⟩,
    ⟨"min-fee", count declared.minFee, "minimum fee sats", ""⟩,
    ⟨"leverage", parameterWithDefault declared.leverage.text, "coordinator leverage", ""⟩,
    ⟨"network", parameterWithDefault (display.network.getD ""),
      "mainnet|signet|testnet|regtest", ""⟩,
    ⟨"log-level", parameterWithDefault (display.logLevel.getD ""),
      "trace|debug|info|warning|error|critical|off", ""⟩]

/-- The first column of the table. -/
def heading (d : Declaration) : String :=
  "  " ++ (if d.letter = "" then "--" ++ d.name else "-" ++ d.letter ++ " [ --" ++ d.name ++ " ]")
    ++ " " ++ d.parameter

/-- A row of the table, with the description in this column. -/
def row (width : Nat) (d : Declaration) : String :=
  d.heading ++ String.ofList (List.replicate (width - d.heading.length) ' ') ++ d.description
    ++ "\n"

/-- The table of some options. The longest first column leaves one blank. -/
def table (declarations : List Declaration) : String :=
  let width := declarations.foldr (fun d n => max d.heading.length n) 0 + 1
  String.join (declarations.map (row width))

end Declaration

/-- The overview of the commands and options. -/
def usage : String :=
  "Usage:\n"
    ++ "  history_inspector classify --flow F --status S\n"
    ++ "  history_inspector fee --fee-percentage P --amount A\n"
    ++ "  history_inspector option [catalog options] [--amount A]\n"
    ++ "  history_inspector entry --kind K [entry options]\n\n"
    ++ "history_inspector options:\n" ++ Declaration.table Declaration.all ++ "\n"

end WalletLedger.CommandLine
