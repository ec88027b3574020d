import WalletLedger.Proofs.DisplayNames

/-!
# Settings from options that may be missing

A level is read from its name by a function that takes names it does not know for `off`, so its
answer alone does not tell whether the name was one. `LogLevel.IsReading` says what is relied on of
such a function, and `DisplaySettings.ofOptionsBy` reads the settings with any function of this
kind. `DisplaySettings.ofOptionsBy_accepts_named` says which options are accepted and what comes of
them, and that nothing changes when the declared defaults are filled in first.
-/

namespace WalletLedger

/-! ### Reading levels -/

namespace LogLevel

/-- The names of the levels, those of two of them in a long and a short form. -/
def spellings : List String :=
  ["trace", "debug", "info", "warning", "error", "critical", "off", "warn", "err"]

/-- The function reads the names of the levels and takes every other name for `off`. -/
structure IsReading (levelOf : String → LogLevel) : Prop where
  trace : levelOf "trace" = .trace
  debug : levelOf "debug" = .debug
  info : levelOf "info" = .info
  warning : levelOf "warning" = .warning
  error : levelOf "error" = .error
  critical : levelOf "critical" = .critical
  off : levelOf "off" = .off
  warn : levelOf "warn" = .warning
  err : levelOf "err" = .error
  unknown : ∀ name, name ∉ spellings → levelOf name = .off

theorem names_table : table.names = spellings := rfl

theorem mem_rows_table_iff {name : String} {level : LogLevel} :
    (name, level) ∈ table.rows ↔ name ∈ spellings ∧ level = ofName name := by
  rw [← value?_eq_some_iff, ← names_table, ← NameTable.isSome_value?_iff, ofName]
  cases table.value? name <;> simp [eq_comm]

theorem isReading_ofName : IsReading ofName where
  trace := by decide
  debug := by decide
  info := by decide
  warning := by decide
  error := by decide
  critical := by decide
  off := by decide
  warn := by decide
  err := by decide
  unknown := by
    intro name hname
    rw [← names_table, ← NameTable.value?_eq_none_iff] at hname
    rw [ofName, hname, Option.getD_none]

/-- There is no choice in how levels are read. -/
theorem IsReading.unique {f g : String → LogLevel} (hf : IsReading f) (hg : IsReading g) :
    f = g := by
  funext name
  by_cases hname : name ∈ spellings
  · simp only [spellings, List.mem_cons, List.not_mem_nil, or_false] at hname
    rcases hname with rfl | rfl | rfl | rfl | rfl | rfl | rfl | rfl | rfl
    · rw [hf.trace, hg.trace]
    · rw [hf.debug, hg.debug]
    · rw [hf.info, hg.info]
    · rw [hf.warning, hg.warning]
    · rw [hf.error, hg.error]
    · rw [hf.critical, hg.critical]
    · rw [hf.off, hg.off]
    · rw [hf.warn, hg.warn]
    · rw [hf.err, hg.err]
  · rw [hf.unknown name hname, hg.unknown name hname]

end LogLevel

/-! ### What the options ask for -/

namespace NameTable

variable {α : Type} {t : NameTable α} {default : String} {o : Option String}

/-- A name that may be missing stands for a value of the table or for that of the default. -/
theorem value?_getD_eq_some_iff (h : t.names.Nodup) {own value : α}
    (hown : (default, own) ∈ t.rows) :
    t.value? (o.getD default) = some value ↔
      (∀ name, o = some name → (name, value) ∈ t.rows) ∧ (o = none → value = own) := by
  rw [value?_eq_some_iff_mem h]
  cases o with
  | none =>
    have hvalue : (default, value) ∈ t.rows ↔ value = own := by
      rw [← value?_eq_some_iff_mem h, (value?_eq_some_iff_mem h).2 hown, Option.some.injEq, eq_comm]
    simpa using hvalue
  | some name => simp

theorem getD_mem_names_iff (hdefault : default ∈ t.names) :
    o.getD default ∈ t.names ↔ ∀ name, o = some name → name ∈ t.names := by
  cases o <;> simp [hdefault]

end NameTable

namespace DisplayOptions

/-- The network that is named, if one is, is one of the four. -/
def NamesNetwork (o : DisplayOptions) : Prop :=
  ∀ name, o.network = some name → name ∈ ["mainnet", "signet", "testnet", "regtest"]

/-- The level that is named, if one is, is one of the known ones. -/
def NamesLevel (o : DisplayOptions) : Prop :=
  ∀ name, o.logLevel = some name → name ∈ LogLevel.spellings

/-- The settings are those that the options name, and the defaults where they name none. -/
structure AskFor (o : DisplayOptions) (levelOf : String → LogLevel) (settings : DisplaySettings) :
    Prop where
  network : ∀ name, o.network = some name → (name, settings.network) ∈
    [("mainnet", Network.mainnet), ("signet", .signet), ("testnet", .testnet),
      ("regtest", .regtest)]
  network_default : o.network = none → settings.network = .mainnet
  logLevel : ∀ name, o.logLevel = some name →
    name ∈ LogLevel.spellings ∧ settings.logLevel = levelOf name
  logLevel_default : o.logLevel = none → settings.logLevel = .info

end DisplayOptions

namespace DisplaySettings

variable {o : DisplayOptions} {settings : DisplaySettings}

theorem ofOptions_filled_eq (o : DisplayOptions) : ofOptions o.filled = ofOptions o := by
  obtain ⟨network, level⟩ := o
  cases network <;> cases level <;> rfl

theorem ofOptions_eq_ok_iff :
    ofOptions o = .ok settings ↔ o.AskFor LogLevel.ofName settings := by
  have hmainnet : ("mainnet", .mainnet) ∈ Network.table.rows := by decide
  have hinfo : ("info", .info) ∈ LogLevel.table.rows := by decide
  rw [← ofOptions_filled_eq, ofOptions_filled_eq_ok_iff,
    NameTable.value?_getD_eq_some_iff (by decide) hmainnet,
    NameTable.value?_getD_eq_some_iff (by decide) hinfo]
  simp only [LogLevel.mem_rows_table_iff]
  constructor
  · rintro ⟨⟨hnetwork, hmainnet⟩, hlevel, hinfo⟩
    exact ⟨hnetwork, hmainnet, hlevel, hinfo⟩
  · intro h
    exact ⟨⟨h.network, h.network_default⟩, h.logLevel, h.logLevel_default⟩

/-- What is looked at in options from which names may be missing. -/
theorem follows_ofOptions (o : DisplayOptions) :
    Follows id (ofOptions o)
      [⟨o.network.getD "mainnet" ∈ Network.table.names, .unknownNetwork⟩,
        ⟨o.logLevel.getD "info" ∈ LogLevel.table.names, .unknownLogLevel⟩] :=
  ofOptions_filled_eq o ▸ follows_ofOptions_filled o

theorem exists_ofOptions_eq_ok_iff :
    (∃ settings, ofOptions o = .ok settings) ↔ o.NamesNetwork ∧ o.NamesLevel := by
  rw [(follows_ofOptions o).exists_eq_ok_iff, Check.first_eq_none_iff, List.forall_mem_cons,
    List.forall_mem_singleton, decide_eq_true_iff, decide_eq_true_iff,
    NameTable.getD_mem_names_iff (by decide), NameTable.getD_mem_names_iff (by decide)]
  rfl

/-- A network that is not one of the four is the reason even if the level is wrong as well. -/
theorem ofOptions_eq_error_iff {e : SettingsError} :
    ofOptions o = .error e ↔
      e = .unknownNetwork ∧ ¬o.NamesNetwork ∨
        e = .unknownLogLevel ∧ o.NamesNetwork ∧ ¬o.NamesLevel := by
  have hnetwork : o.network.getD "mainnet" ∈ Network.table.names ↔ o.NamesNetwork :=
    NameTable.getD_mem_names_iff (by decide)
  have hlevel : o.logLevel.getD "info" ∈ LogLevel.table.names ↔ o.NamesLevel :=
    NameTable.getD_mem_names_iff (by decide)
  rw [(follows_ofOptions o).eq_error_iff]
  by_cases hn : o.NamesNetwork
  · rw [Check.first_cons_of_holds (decide_eq_true (hnetwork.2 hn))]
    by_cases hl : o.NamesLevel
    · rw [Check.first_cons_of_holds (decide_eq_true (hlevel.2 hl))]
      simp [hn, hl, Check.first]
    · rw [Check.first_cons_of_not_holds (decide_eq_false (mt hlevel.1 hl))]
      simp [hn, hl, eq_comm]
  · rw [Check.first_cons_of_not_holds (decide_eq_false (mt hnetwork.1 hn))]
    simp [hn, eq_comm]

/-- The level is `off` only if it was asked for by that name. -/
theorem logLevel_eq_off_iff (h : ofOptions o = .ok settings) :
    settings.logLevel = .off ↔ o.logLevel = some "off" := by
  have hask := ofOptions_eq_ok_iff.1 h
  cases hlevel : o.logLevel with
  | none => simp [hask.logLevel_default hlevel]
  | some name =>
    have hrow := LogLevel.mem_rows_table_iff.2 (hask.logLevel name hlevel)
    rw [← LogLevel.value?_eq_some_iff] at hrow
    constructor
    · intro hoff
      rw [hoff, LogLevel.value?_eq_off_iff] at hrow
      rw [hrow]
    · intro hoff
      cases hoff
      rw [LogLevel.value?_eq_off_iff.2 rfl, Option.some.injEq] at hrow
      exact hrow.symm

/-- **Which display options are accepted.** However names of levels are read, as long as those of
the levels are read as such and all others as `off`: options are accepted exactly if the network, if
there is one, is one of the four names and the level, if there is one, is one of the known names,
letter for letter. The settings are those named, or else the defaults; an unknown network is
reported before an unknown level; and the level is `off` only where `off` was asked for. It makes no
difference whether the declared defaults are filled in first. -/
theorem ofOptionsBy_accepts_named {levelOf : String → LogLevel} (h : LogLevel.IsReading levelOf)
    (o : DisplayOptions) :
    ((∃ settings, ofOptionsBy levelOf o = .ok settings) ↔ o.NamesNetwork ∧ o.NamesLevel) ∧
    (∀ settings, ofOptionsBy levelOf o = .ok settings ↔ o.AskFor levelOf settings) ∧
    (∀ e, ofOptionsBy levelOf o = .error e ↔
      e = .unknownNetwork ∧ ¬o.NamesNetwork ∨
        e = .unknownLogLevel ∧ o.NamesNetwork ∧ ¬o.NamesLevel) ∧
    (∀ settings, ofOptionsBy levelOf o = .ok settings →
      (settings.logLevel = .off ↔ o.logLevel = some "off")) ∧
    ofOptionsBy levelOf o.filled = ofOptionsBy levelOf o ∧
    ofOptionsBy levelOf o = ofOptions o := by
  obtain rfl := h.unique LogLevel.isReading_ofName
  exact ⟨exists_ofOptions_eq_ok_iff, fun _ => ofOptions_eq_ok_iff, fun _ => ofOptions_eq_error_iff,
    fun _ => logLevel_eq_off_iff, ofOptions_filled_eq o, rfl⟩

/-- A capital letter makes `off` an unknown name, and one in the network's name is seen first. -/
theorem ofOptionsBy_accepts_named_off :
    LogLevel.IsReading LogLevel.ofName ∧
    ofOptionsBy LogLevel.ofName ⟨none, some "off"⟩ = .ok ⟨.mainnet, .off⟩ ∧
    ofOptionsBy LogLevel.ofName ⟨some "regtest", some "Off"⟩ = .error .unknownLogLevel ∧
    ofOptionsBy LogLevel.ofName ⟨some "Regtest", some "Off"⟩ = .error .unknownNetwork := by
  have hreading := LogLevel.isReading_ofName
  have hlevel (network : Option String) : ¬DisplayOptions.NamesLevel ⟨network, some "Off"⟩ :=
    fun h => absurd (h "Off" rfl) (by decide)
  have hregtest : DisplayOptions.NamesNetwork ⟨some "regtest", some "Off"⟩ := by
    rintro name ⟨⟩
    decide
  have hunknown : ¬DisplayOptions.NamesNetwork ⟨some "Regtest", some "Off"⟩ :=
    fun h => absurd (h "Regtest" rfl) (by decide)
  refine ⟨hreading, ((ofOptionsBy_accepts_named hreading _).2.1 _).2 ?_,
    ((ofOptionsBy_accepts_named hreading _).2.2.1 _).2 (Or.inr ⟨rfl, hregtest, hlevel _⟩),
    ((ofOptionsBy_accepts_named hreading _).2.2.1 _).2 (Or.inl ⟨rfl, hunknown⟩)⟩
  exact {
    network := by rintro name ⟨⟩
    network_default := fun _ => rfl
    logLevel := by
      rintro name ⟨⟩
      exact ⟨by decide, hreading.off.symm⟩
    logLevel_default := by rintro ⟨⟩ }

end DisplaySettings

end WalletLedger
