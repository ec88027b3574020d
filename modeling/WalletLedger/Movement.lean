import WalletLedger.Breach
import WalletLedger.Enumeration

/-!
# Movements of money

A movement goes into the wallet or out of it (`Flow`) and stands at some point between asked for and
settled (`Status`). `classify` puts the two into words and gives the sign with which the movement
counts. Stored codes outside the enumerations are met with a breach where there is nothing to say
about them.
-/

namespace WalletLedger

/-- The direction of a movement, into the wallet or out of it. -/
inductive Flow where
  | inbound
  | outbound
  deriving DecidableEq

/-- How far a movement has come: it is under way, it is settled, its time ran out, or it did not go
through. -/
inductive Status where
  | pending
  | confirmed
  | expired
  | failed
  deriving DecidableEq

/-- The names of the flows. -/
def Flow.table : NameTable Flow := ⟨[("Inbound", .inbound), ("Outbound", .outbound)]⟩

instance : Enumeration Flow where
  table := Flow.table
  code
    | .inbound => 0
    | .outbound => 1
  ofInput? := Flow.table.value?

/-- The names of the statuses. -/
def Status.table : NameTable Status :=
  ⟨[("Pending", .pending), ("Confirmed", .confirmed), ("Expired", .expired), ("Failed", .failed)]⟩

instance : Enumeration Status where
  table := Status.table
  code
    | .pending => 0
    | .confirmed => 1
    | .expired => 2
    | .failed => 3
  ofInput? := Status.table.value?

/-- Where the arrow of a movement points: up, out of the wallet, or down into it. -/
inductive Arrow where
  | up
  | down
  deriving DecidableEq

/-- The name of an arrow. -/
def Arrow.name : Arrow → String
  | .up => "up"
  | .down => "down"

/-- What a movement is to the owner of the wallet: the factor with which the amount counts, `1` or
`-1`, and what the owner does or did, to be read after "You". -/
structure Classification where
  sign : Int
  verb : String
  deriving DecidableEq

namespace Movement

/-- What the owner of the wallet does or did in a movement into it. -/
def inboundVerb : Status → String
  | .failed => "failed to receive"
  | .expired => "failed to receive"
  | .pending => "are receiving"
  | .confirmed => "received"

/-- What the owner of the wallet does or did in a movement out of it. -/
def outboundVerb : Status → String
  | .failed => "tried to send"
  | .expired => "tried to send"
  | .pending => "are sending"
  | .confirmed => "sent"

/-- The sign and the words for a movement. -/
def classify : Coded Flow → Coded Status → Except Breach Classification
  | .listed .inbound, .listed status => .ok ⟨1, inboundVerb status⟩
  | .listed .inbound, .unlisted _ => .error .unhandledInboundStatus
  | .listed .outbound, .listed status => .ok ⟨-1, outboundVerb status⟩
  | .listed .outbound, .unlisted _ => .error .unhandledOutboundStatus
  | .unlisted _, _ => .error .unhandledFlow

/-- The sign that is written before an amount. -/
def signText : Coded Flow → Except Breach String
  | .listed .inbound => .ok "+"
  | .listed .outbound => .ok "-"
  | .unlisted _ => .error .unhandledFlow

/-- The arrow that stands for a flow. -/
def arrow : Coded Flow → Except Breach Arrow
  | .listed .inbound => .ok .down
  | .listed .outbound => .ok .up
  | .unlisted _ => .error .unhandledFlow

/-- Whether a movement will not change any more: whatever is not under way is at its end. -/
def isTerminal (status : Coded Status) : Bool := status != .listed .pending

end Movement

end WalletLedger
