import WalletLedger.Proofs.Checks
import WalletLedger.Settings

/-!
# The names in the display settings

Both display options are names. A log level is read by its name although unknown names read as
`off` (`readLogLevel_eq_ok_iff`): `off` has no other name. With the declared defaults filled in,
settings are made exactly if both names are known (`ofOptions_filled_eq_ok_iff`), and the network is
looked at before the log level (`follows_ofOptions_filled`).
-/

namespace WalletLedger

/-- Some levels have two names, but no name stands for two levels. -/
theorem LogLevel.value?_eq_some_iff {name : String} {level : LogLevel} :
    LogLevel.table.value? name = some level ↔ (name, level) ∈ LogLevel.table.rows :=
  NameTable.value?_eq_some_iff_mem (by decide)

/-- Only `off` itself stands for `off`. -/
theorem LogLevel.value?_eq_off_iff {name : String} :
    LogLevel.table.value? name = some .off ↔ name = "off" := by
  rw [LogLevel.value?_eq_some_iff]
  simp [table]

namespace DisplaySettings

theorem readNetwork_eq_ok_iff {name : String} {network : Network} :
    readNetwork name = .ok network ↔ Network.table.value? name = some network := by
  unfold readNetwork
  cases Network.table.value? name <;> simp

theorem follows_readNetwork (name : String) :
    Follows id (readNetwork name) [⟨name ∈ Network.table.names, .unknownNetwork⟩] := by
  rw [← NameTable.isSome_value?_eq, readNetwork]
  cases Network.table.value? name <;> rfl

/-- The level of a name is that of the table, and a name outside the table has none. -/
theorem readLogLevel_eq (name : String) :
    readLogLevel name =
      match LogLevel.table.value? name with
      | some level => .ok level
      | none => .error .unknownLogLevel := by
  unfold readLogLevel readLogLevelBy LogLevel.ofName
  cases h : LogLevel.table.value? name with
  | none =>
    have hoff : name ≠ "off" := by
      rintro rfl
      rw [LogLevel.value?_eq_off_iff.2 rfl] at h
      cases h
    simp [hoff]
  | some level =>
    have hoff : level = .off → name = "off" := by
      rintro rfl
      exact LogLevel.value?_eq_off_iff.1 h
    rw [Option.getD_some, if_neg fun hboth => hboth.2 (hoff hboth.1)]

theorem readLogLevel_eq_ok_iff {name : String} {level : LogLevel} :
    readLogLevel name = .ok level ↔ LogLevel.table.value? name = some level := by
  rw [readLogLevel_eq]
  cases LogLevel.table.value? name <;> simp

theorem follows_readLogLevel (name : String) :
    Follows id (readLogLevel name) [⟨name ∈ LogLevel.table.names, .unknownLogLevel⟩] := by
  rw [← NameTable.isSome_value?_eq, readLogLevel_eq]
  cases LogLevel.table.value? name <;> rfl

/-- What is not named is read by its default. -/
theorem ofOptions_filled (o : DisplayOptions) :
    ofOptions o.filled = do
      let network ← readNetwork (o.network.getD "mainnet")
      let logLevel ← readLogLevel (o.logLevel.getD "info")
      return { network, logLevel } := rfl

theorem ofOptions_filled_eq_ok_iff {o : DisplayOptions} {settings : DisplaySettings} :
    ofOptions o.filled = .ok settings ↔
      Network.table.value? (o.network.getD "mainnet") = some settings.network ∧
      LogLevel.table.value? (o.logLevel.getD "info") = some settings.logLevel := by
  simp only [ofOptions_filled, bind_eq_ok_iff, readNetwork_eq_ok_iff, readLogLevel_eq_ok_iff]
  constructor
  · rintro ⟨network, hnetwork, logLevel, hlevel, ⟨⟩⟩
    exact ⟨hnetwork, hlevel⟩
  · rintro ⟨hnetwork, hlevel⟩
    exact ⟨settings.network, hnetwork, settings.logLevel, hlevel, rfl⟩

theorem follows_ofOptions_filled (o : DisplayOptions) :
    Follows id (ofOptions o.filled)
      [⟨o.network.getD "mainnet" ∈ Network.table.names, .unknownNetwork⟩,
        ⟨o.logLevel.getD "info" ∈ LogLevel.table.names, .unknownLogLevel⟩] := by
  rw [ofOptions_filled]
  refine .step (follows_readNetwork _) fun network _ => ?_
  exact .step (follows_readLogLevel _) fun logLevel _ => .of_pure _

end DisplaySettings

end WalletLedger
