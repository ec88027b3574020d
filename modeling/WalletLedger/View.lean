import WalletLedger.Sheet

/-!
# The view of an entry

`Entry.view` gathers all that is shown of an entry. Only a stored code outside its enumeration or an
amount outside the signed range keeps one of its parts from being shown (`View.IsWhole`).
-/

namespace WalletLedger

/-- The picture beside an entry. An arrow points in the direction of the flow. -/
inductive Icon where
  | directionalArrow
  | chart
  | toll
  | generic
  deriving DecidableEq

instance : Enumeration Icon where
  table := ⟨[("directional_arrow", .directionalArrow), ("chart", .chart), ("toll", .toll),
    ("generic", .generic)]⟩
  code
    | .directionalArrow => 0
    | .chart => 1
    | .toll => 2
    | .generic => 3

/-- The picture for a kind of entry. -/
def Kind.icon : Kind → Icon
  | .lightningPayment => .directionalArrow
  | .trade => .chart
  | .orderMatchingFee => .toll
  | .jitChannelOpenFee => .toll
  | .onChainPayment => .directionalArrow

/-- All that is shown of an entry: in which words and with which picture, where the movement took
place, whether it is at its end, the amount with its sign, the rows of its kind and all rows. -/
structure View where
  title : String
  chainLabel : String
  isOnChain : Bool
  icon : Icon
  arrow : Except Breach Arrow
  signText : Except Breach String
  headline : Except Breach String
  signedUnits : Except Breach Int
  isTerminal : Bool
  detailRows : List Row
  historyRows : List Row

/-- The view of an entry. -/
def Entry.view (e : Entry) : View where
  title := e.title
  chainLabel := e.chainLabel
  isOnChain := e.isOnChain
  icon := e.kind.icon
  arrow := Movement.arrow e.flow
  signText := Movement.signText e.flow
  headline := e.headline
  signedUnits := e.signedUnits
  isTerminal := Movement.isTerminal e.status
  detailRows := e.detailRows
  historyRows := e.historyRows

/-- Every part of the view can be shown: there are an arrow, a sign, a headline and a signed
amount. -/
structure View.IsWhole (v : View) : Prop where
  arrow : ∃ arrow, v.arrow = .ok arrow
  signText : ∃ text, v.signText = .ok text
  headline : ∃ text, v.headline = .ok text
  signedUnits : ∃ units, v.signedUnits = .ok units

end WalletLedger
