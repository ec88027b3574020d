import WalletLedger.Names

/-!
# Log lines

The library does not write a log. Operations that have something to log answer it as a list of
lines, each with its level, in the order in which they arise; whoever runs them decides what is
shown.
-/

namespace WalletLedger

/-- How much a log line matters, from the least to the most; `off` shows nothing at all. -/
inductive LogLevel where
  | trace
  | debug
  | info
  | warning
  | error
  | critical
  | off
  deriving DecidableEq

namespace LogLevel

/-- The place of a level in the order of levels. -/
def rank : LogLevel → Nat
  | .trace => 0
  | .debug => 1
  | .info => 2
  | .warning => 3
  | .error => 4
  | .critical => 5
  | .off => 6

/-- The names of the levels, two of which have a short form too. -/
def table : NameTable LogLevel :=
  ⟨[("trace", .trace), ("debug", .debug), ("info", .info), ("warning", .warning),
    ("error", .error), ("critical", .critical), ("off", .off), ("warn", .warning), ("err", .error)]⟩

/-- The level that a name asks for. A name that is not known turns logging off. -/
def ofName (name : String) : LogLevel := (table.value? name).getD .off

/-- Whether a log at this level shows a line of another. -/
def shows (threshold line : LogLevel) : Bool := threshold.rank ≤ line.rank

end LogLevel

/-- A line of the log. -/
structure LogLine where
  level : LogLevel
  text : String
  deriving DecidableEq

end WalletLedger
