import WalletLedger.Breach
import WalletLedger.Enumeration

/-!
# Networks and the block explorer

Transactions live on one of four networks. The explorer shows those of the main network at its root
and those of the public test networks under a path of their own; a private network has no page, and
its links go to the root.
-/

namespace WalletLedger

/-- A network of nodes. Coins have a price on `mainnet` alone; `signet` and `testnet` are open test
networks, and `regtest` is a private one. -/
inductive Network where
  | mainnet
  | signet
  | testnet
  | regtest
  deriving DecidableEq

/-- The names of the networks. -/
def Network.table : NameTable Network :=
  ⟨[("mainnet", .mainnet), ("signet", .signet), ("testnet", .testnet), ("regtest", .regtest)]⟩

instance : Enumeration Network where
  table := Network.table
  code
    | .mainnet => 0
    | .signet => 1
    | .testnet => 2
    | .regtest => 3
  ofInput? := Network.table.value?

namespace Explorer

/-- The part of the path that names the network. -/
def networkPath : Network → String
  | .mainnet => ""
  | .signet => "signet/"
  | .testnet => "testnet/"
  | .regtest => ""

/-- The page of a transaction. -/
def transactionPage : Coded Network → String → Except Breach String
  | .listed network, txid => .ok ("https://mempool.space/" ++ networkPath network ++ "tx/" ++ txid)
  | .unlisted _, _ => .error .unhandledNetwork

end Explorer

end WalletLedger
