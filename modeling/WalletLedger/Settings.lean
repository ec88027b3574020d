import WalletLedger.Explorer
import WalletLedger.Log

/-!
# Display settings

Two options say how things are shown: the network whose explorer is linked, and the log level.
Either may be left out, and an unknown name for either is refused, the network's first.
-/

namespace WalletLedger

/-- Why settings were refused: no network or no log level has the name. -/
inductive SettingsError where
  | unknownNetwork
  | unknownLogLevel
  deriving DecidableEq

instance : Enumeration SettingsError where
  table := ⟨[("unknown_network", .unknownNetwork), ("unknown_log_level", .unknownLogLevel)]⟩
  code
    | .unknownNetwork => 1
    | .unknownLogLevel => 2

/-- The two options as they are given, by name. -/
structure DisplayOptions where
  network : Option String := none
  logLevel : Option String := none
  deriving DecidableEq

/-- The options with what they are declared to default to. -/
def DisplayOptions.filled (o : DisplayOptions) : DisplayOptions :=
  ⟨some (o.network.getD "mainnet"), some (o.logLevel.getD "info")⟩

/-- How things are shown: the network whose explorer is linked, and the level from which on log
lines are shown. -/
structure DisplaySettings where
  network : Network := .mainnet
  logLevel : LogLevel := .info
  deriving DecidableEq

namespace DisplaySettings

/-- The network of a name, if there is one. -/
def readNetwork (name : String) : Except SettingsError Network :=
  match Network.table.value? name with
  | some network => .ok network
  | none => .error .unknownNetwork

/-- The log level of a name, when names are read by this function. It is taken to read unknown names
as `off`, so `off` itself is told by its name. -/
def readLogLevelBy (levelOf : String → LogLevel) (name : String) :
    Except SettingsError LogLevel :=
  if levelOf name = .off ∧ name ≠ "off" then .error .unknownLogLevel else .ok (levelOf name)

/-- The log level of a name, if there is one. -/
def readLogLevel : String → Except SettingsError LogLevel := readLogLevelBy LogLevel.ofName

/-- The settings that the options ask for, when names of levels are read by this function. -/
def ofOptionsBy (levelOf : String → LogLevel) (o : DisplayOptions) :
    Except SettingsError DisplaySettings := do
  let defaults : DisplaySettings := {}
  let network ← match o.network with
    | none => pure defaults.network
    | some name => readNetwork name
  let logLevel ← match o.logLevel with
    | none => pure defaults.logLevel
    | some name => readLogLevelBy levelOf name
  return { network, logLevel }

/-- The settings that the options ask for. -/
def ofOptions : DisplayOptions → Except SettingsError DisplaySettings :=
  ofOptionsBy LogLevel.ofName

end DisplaySettings

end WalletLedger
