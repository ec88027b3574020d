import WalletLedger.Proofs.NameTables
import WalletLedger.Record
import WalletLedger.Settings
import WalletLedger.View

/-!
# Names shown for stored codes

A stored code is shown by the name of its value, and by `unknown` if it is the code of none. In a
`LawfulEnumeration` the name leads back: what is shown is read as the value it was shown for and as
no other (`Coded.value?_name_eq_some_iff`), and a code of no value is read as nothing.
`Enumeration.ReadsBack` gathers this, and `NameTable.readings_inverse` states it of every
enumeration of the library, after the law of name tables that it rests on.
-/

namespace WalletLedger

/-- The code of the value that a name stands for. -/
def Enumeration.codeOfName? (α : Type) [DecidableEq α] [Enumeration α] (name : String) :
    Option UInt32 :=
  (table.value? name).map (code (α := α))

/-! ### Stored codes -/

namespace Coded

variable {α : Type} [DecidableEq α] [Enumeration α] [LawfulEnumeration α]
  {c : Coded α} {n m : UInt32} {name : String} {value : α}

theorem ofCode_eq_listed_iff :
    (ofCode n : Coded α) = .listed value ↔ Enumeration.code value = n := by
  have hfound : (Enumeration.table.values.find? fun v : α => Enumeration.code v == n) = some value ↔
      Enumeration.code value = n := by
    rw [find?_eq_some_iff_mem LawfulEnumeration.codes_nodup,
      and_iff_right (LawfulEnumeration.mem_values value)]
  rw [← hfound, ofCode]
  cases Enumeration.table.values.find? fun v : α => Enumeration.code v == n <;> simp

theorem name?_eq_some_iff :
    c.name? = some name ↔ ∃ v, c = .listed v ∧ Enumeration.table.value? name = some v := by
  cases c with
  | listed own =>
    simp [name?, NameTable.value?_eq_some_iff_name? (LawfulEnumeration.table_oneToOne α)]
  | unlisted n => simp [name?]

/-- What is shown is read as what it was shown for, and as nothing if that is no value. -/
theorem value?_name_eq_some_iff :
    Enumeration.table.value? c.name = some value ↔ c = .listed value := by
  cases c with
  | listed own =>
    have hown : Enumeration.table.value? (listed own).name = some own :=
      Enumeration.value?_eq_some_iff_name.2 rfl
    rw [hown, Option.some.injEq, listed.injEq]
  | unlisted n =>
    have hunknown : Enumeration.table.value? (unlisted n : Coded α).name = none :=
      NameTable.value?_eq_none_iff.2 (LawfulEnumeration.unknown_notMem_names α)
    simp [hunknown]

theorem codeOfName?_eq_some_iff :
    Enumeration.codeOfName? α name = some n ↔ (ofCode n : Coded α).name? = some name := by
  simp only [Enumeration.codeOfName?, Option.map_eq_some_iff, name?_eq_some_iff,
    ofCode_eq_listed_iff, and_comm]

/-- The name shown for a code leads back to it if the code is that of a value, and nowhere
otherwise. -/
theorem codeOfName?_name_ofCode_eq_some_iff :
    Enumeration.codeOfName? α (ofCode n : Coded α).name = some m ↔
      m = n ∧ ∃ v : α, Enumeration.code v = n := by
  simp only [Enumeration.codeOfName?, Option.map_eq_some_iff, value?_name_eq_some_iff,
    ofCode_eq_listed_iff]
  constructor
  · rintro ⟨v, hv, rfl⟩
    exact ⟨hv, v, hv⟩
  · rintro ⟨rfl, v, hv⟩
    exact ⟨v, hv, hv⟩

end Coded

/-- What is shown of an enumeration leads back to what is stored. -/
structure Enumeration.ReadsBack (α : Type) [DecidableEq α] [Enumeration α] : Prop where
  /-- No name and no value stands twice in the table. -/
  oneToOne : (table (α := α)).OneToOne
  /-- No two values are stored by the same code. -/
  codes_nodup : ((table (α := α)).values.map code).Nodup
  /-- No value has the name that is shown for what has none. -/
  unknown_notMem : "unknown" ∉ (table (α := α)).names
  /-- A name stands for a code exactly if that code, whatever number it is, has the name. -/
  name_iff : ∀ (name : String) (n : UInt32),
    codeOfName? α name = some n ↔ (Coded.ofCode n : Coded α).name? = some name
  /-- The name shown for a code stands for that code, or for none if the code is no value's. -/
  shown_code_iff : ∀ n m : UInt32,
    codeOfName? α (Coded.ofCode n : Coded α).name = some m ↔ m = n ∧ ∃ value : α, code value = n
  /-- The name shown for a value stands for that value, and the name for what is none for none. -/
  shown_iff : ∀ (c : Coded α) (value : α), table.value? c.name = some value ↔ c = .listed value
  /-- Nor does it stand for another value where it is met in the input. -/
  input_shown : ∀ (c : Coded α) (value : α), ofInput? c.name = some value → c = .listed value

theorem Enumeration.readsBack (α : Type) [DecidableEq α] [Enumeration α] [LawfulEnumeration α] :
    Enumeration.ReadsBack α where
  oneToOne := LawfulEnumeration.table_oneToOne α
  codes_nodup := LawfulEnumeration.codes_nodup
  unknown_notMem := LawfulEnumeration.unknown_notMem_names α
  name_iff := fun _ _ => Coded.codeOfName?_eq_some_iff
  shown_code_iff := fun _ _ => Coded.codeOfName?_name_ofCode_eq_some_iff
  shown_iff := fun _ _ => Coded.value?_name_eq_some_iff
  input_shown := fun _ _ hinput =>
    Coded.value?_name_eq_some_iff.1 (LawfulEnumeration.value?_of_ofInput? hinput)

/-! ### The enumerations of the library -/

instance : LawfulEnumeration Network where
  mem_values := fun network => by cases network <;> decide
  names_nodup := by decide
  codes_nodup := by decide
  value?_of_ofInput? := id

instance : LawfulEnumeration AmountError where
  mem_values := fun error => by cases error <;> decide
  names_nodup := by decide
  codes_nodup := by decide
  value?_of_ofInput? := fun h => by cases h

instance : LawfulEnumeration RecordError where
  mem_values := fun error => by cases error <;> decide
  names_nodup := by decide
  codes_nodup := by decide
  value?_of_ofInput? := fun h => by cases h

instance : LawfulEnumeration SettingsError where
  mem_values := fun error => by cases error <;> decide
  names_nodup := by decide
  codes_nodup := by decide
  value?_of_ofInput? := fun h => by cases h

instance : LawfulEnumeration Hint where
  mem_values := fun hint => by cases hint <;> decide
  names_nodup := by decide
  codes_nodup := by decide
  value?_of_ofInput? := fun h => by cases h

instance : LawfulEnumeration Icon where
  mem_values := fun icon => by cases icon <;> decide
  names_nodup := by decide
  codes_nodup := by decide
  value?_of_ofInput? := fun h => by cases h

/-- **Names and values undo one another.** In any table in which no name and no value stands twice,
a name is read as a value exactly if the value is read as that name, and this is so exactly if the
two stand in one row. The tables of all enumerations are of this kind and leave out `unknown`, the
name for what has none: so the name shown for any stored code, be it that of a value or not, is read
as that very code or as nothing. -/
theorem NameTable.readings_inverse :
    (∀ (α : Type) [DecidableEq α] (t : NameTable α), t.OneToOne →
      ∀ (name : String) (value : α),
        (t.value? name = some value ↔ t.name? value = some name) ∧
        (t.value? name = some value ↔ (name, value) ∈ t.rows)) ∧
    Enumeration.ReadsBack Flow ∧ Enumeration.ReadsBack Status ∧ Enumeration.ReadsBack Network ∧
    Enumeration.ReadsBack AmountError ∧ Enumeration.ReadsBack RecordError ∧
    Enumeration.ReadsBack SettingsError ∧
    Enumeration.ReadsBack Hint ∧ Enumeration.ReadsBack Icon := by
  refine ⟨?_, Enumeration.readsBack _, Enumeration.readsBack _, Enumeration.readsBack _,
    Enumeration.readsBack _, Enumeration.readsBack _, Enumeration.readsBack _,
    Enumeration.readsBack _, Enumeration.readsBack _⟩
  intro α _ t h name value
  exact ⟨value?_eq_some_iff_name? h, value?_eq_some_iff_mem h.names_nodup⟩

/-- A table may list code 250 under a name of its own. That of the statuses lists none beyond 3, so
what is shown for 250 is read as no code. -/
theorem NameTable.readings_inverse_unlisted :
    let t : NameTable UInt8 := ⟨[("Pending", 0), ("Failed", 3), ("Retired", 250)]⟩
    t.OneToOne ∧ t.value? "Retired" = some 250 ∧ t.name? 250 = some "Retired" ∧
    Enumeration.codeOfName? Status (Coded.ofCode 3 : Coded Status).name = some 3 ∧
    ∀ n, Enumeration.codeOfName? Status (Coded.ofCode 250 : Coded Status).name ≠ some n := by
  intro t
  have ht : t.OneToOne := ⟨by decide, by decide⟩
  have hretired := readings_inverse.1 UInt8 t ht "Retired" 250
  have hvalue : t.value? "Retired" = some 250 := hretired.2.2 (by decide)
  have hstatus : Enumeration.ReadsBack Status := readings_inverse.2.2.1
  refine ⟨ht, hvalue, hretired.1.1 hvalue, (hstatus.shown_code_iff 3 3).2 ⟨rfl, .failed, rfl⟩, ?_⟩
  intro n hn
  obtain ⟨-, status, hcode⟩ := (hstatus.shown_code_iff 250 n).1 hn
  cases status <;> exact absurd hcode (by decide)

/-- The log levels have no such table: `warn` is read as a level that has another name. -/
example : LogLevel.table.value? "warn" = some .warning ∧
    LogLevel.table.name? .warning = some "warning" := by decide

end WalletLedger
