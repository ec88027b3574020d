/-!
# Breaches

A breach is a broken promise between parts of the library, not a mistake in anybody's input: a
stored code outside its enumeration reaches a place that handles every listed one, or a sum leaves
the range of amounts. A program that meets a breach stops.
-/

namespace WalletLedger

/-- What went wrong inside the library: the sum of two amounts is above the largest amount, an
amount has no signed counterpart, or a flow, a status or a network whose code is outside its
enumeration was asked for its meaning. -/
inductive Breach where
  | amountOverflow
  | unsignableAmount
  | unhandledFlow
  | unhandledInboundStatus
  | unhandledOutboundStatus
  | unhandledNetwork
  deriving DecidableEq

/-- The last words of a program that stops on this breach. -/
def Breach.message : Breach → String
  | .amountOverflow => "monetary amount addition overflowed"
  | .unsignableAmount => "history entry amount exceeds the signed range"
  | .unhandledFlow => "unhandled flow"
  | .unhandledInboundStatus => "unhandled inbound status"
  | .unhandledOutboundStatus => "unhandled outbound status"
  | .unhandledNetwork => "unhandled network"

end WalletLedger
