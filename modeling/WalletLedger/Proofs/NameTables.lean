import WalletLedger.Movement

/-!
# Reading name tables in both directions

Where no name and no value occurs twice, the first row that fits is the only one, so a name stands
for a value exactly if the value has that name (`NameTable.value?_eq_some_iff_name?`). In a
`LawfulEnumeration` every value is listed besides, and this is the name that is shown for it
(`Enumeration.value?_eq_some_iff_name`).
-/

namespace WalletLedger

/-- Where no key occurs twice, a row that is found is any row with its key. -/
theorem find?_eq_some_iff_mem {α κ : Type} [DecidableEq κ] {key : α → κ} {rows : List α}
    (h : (rows.map key).Nodup) {row : α} {k : κ} :
    (rows.find? fun row => key row == k) = some row ↔ row ∈ rows ∧ key row = k := by
  constructor
  · intro found
    exact ⟨List.mem_of_find?_eq_some found, by simpa using List.find?_some found⟩
  · rintro ⟨hmem, rfl⟩
    induction rows with
    | nil => cases hmem
    | cons first rest ih =>
      rw [List.map_cons, List.nodup_cons] at h
      rcases List.mem_cons.1 hmem with rfl | hrest
      · simp
      · -- the first row has another key, or this one would occur twice
        have hne : key first ≠ key row := fun heq => h.1 (heq ▸ List.mem_map_of_mem hrest)
        rw [List.find?_cons_of_neg (by simpa using hne)]
        exact ih h.2 hrest

namespace NameTable

variable {α : Type} {t : NameTable α} {name : String} {value : α}

theorem isSome_value?_iff : (t.value? name).isSome ↔ name ∈ t.names := by
  simp [value?, names]

theorem isSome_value?_eq : (t.value? name).isSome = decide (name ∈ t.names) := by
  rw [Bool.eq_iff_iff, isSome_value?_iff, decide_eq_true_iff]

theorem value?_eq_none_iff : t.value? name = none ↔ name ∉ t.names := by
  rw [← isSome_value?_iff, Option.not_isSome_iff_eq_none]

/-- A name that occurs once stands for the value in its row. -/
theorem value?_eq_some_iff_mem (h : t.names.Nodup) :
    t.value? name = some value ↔ (name, value) ∈ t.rows := by
  simp only [value?, Option.map_eq_some_iff, find?_eq_some_iff_mem h]
  constructor
  · rintro ⟨row, ⟨hmem, rfl⟩, rfl⟩
    exact hmem
  · intro hmem
    exact ⟨(name, value), ⟨hmem, rfl⟩, rfl⟩

theorem name?_eq_some_iff_mem [DecidableEq α] (h : t.values.Nodup) :
    t.name? value = some name ↔ (name, value) ∈ t.rows := by
  simp only [name?, Option.map_eq_some_iff, find?_eq_some_iff_mem h]
  constructor
  · rintro ⟨row, ⟨hmem, rfl⟩, rfl⟩
    exact hmem
  · intro hmem
    exact ⟨(name, value), ⟨hmem, rfl⟩, rfl⟩

/-- A table without repetitions reads the same from names to values and back. -/
theorem value?_eq_some_iff_name? [DecidableEq α] (h : t.OneToOne) :
    t.value? name = some value ↔ t.name? value = some name := by
  rw [value?_eq_some_iff_mem h.names_nodup, name?_eq_some_iff_mem h.values_nodup]

theorem isSome_name?_iff [DecidableEq α] : (t.name? value).isSome ↔ value ∈ t.values := by
  simp [name?, values]

end NameTable

/-- The values of an enumeration are told apart by their names and by their codes, and from what is
no value of it. -/
class LawfulEnumeration (α : Type) [DecidableEq α] [Enumeration α] : Prop where
  /-- Every value stands in the table. -/
  mem_values : ∀ value : α, value ∈ (Enumeration.table (α := α)).values
  /-- The names differ from one another and from the name for what has none. -/
  names_nodup : ("unknown" :: (Enumeration.table (α := α)).names).Nodup
  /-- No two values are stored by the same code. -/
  codes_nodup : ((Enumeration.table (α := α)).values.map Enumeration.code).Nodup
  /-- Names in the input stand for what they stand for in the table, or for nothing. -/
  value?_of_ofInput? : ∀ {name : String} {value : α},
    Enumeration.ofInput? name = some value → Enumeration.table.value? name = some value

namespace LawfulEnumeration

variable (α : Type) [DecidableEq α] [Enumeration α] [LawfulEnumeration α]

theorem unknown_notMem_names : "unknown" ∉ (Enumeration.table (α := α)).names :=
  (List.nodup_cons.1 names_nodup).1

/-- Values with different codes are different, so none stands twice. -/
theorem table_oneToOne : (Enumeration.table (α := α)).OneToOne where
  names_nodup := (List.nodup_cons.1 names_nodup).2
  values_nodup :=
    (List.pairwise_map.1 codes_nodup).imp fun hcode hvalue => hcode (congrArg _ hvalue)

end LawfulEnumeration

/-- A name stands for the value that is shown by it. -/
theorem Enumeration.value?_eq_some_iff_name {α : Type} [DecidableEq α] [Enumeration α]
    [LawfulEnumeration α] {name : String} {value : α} :
    Enumeration.table.value? name = some value ↔ Enumeration.name value = name := by
  obtain ⟨shown, hshown⟩ := Option.isSome_iff_exists.1
    (NameTable.isSome_name?_iff.2 (LawfulEnumeration.mem_values value))
  rw [NameTable.value?_eq_some_iff_name? (LawfulEnumeration.table_oneToOne α), Enumeration.name,
    Coded.name, Coded.name?, hshown, Option.some.injEq, Option.getD_some]

instance : LawfulEnumeration Flow where
  mem_values := fun flow => by cases flow <;> decide
  names_nodup := by decide
  codes_nodup := by decide
  value?_of_ofInput? := id

instance : LawfulEnumeration Status where
  mem_values := fun status => by cases status <;> decide
  names_nodup := by decide
  codes_nodup := by decide
  value?_of_ofInput? := id

theorem Flow.value?_eq_some_iff {name : String} {flow : Flow} :
    Flow.table.value? name = some flow ↔ Enumeration.name flow = name :=
  Enumeration.value?_eq_some_iff_name

theorem Status.value?_eq_some_iff {name : String} {status : Status} :
    Status.table.value? name = some status ↔ Enumeration.name status = name :=
  Enumeration.value?_eq_some_iff_name

/-- No two statuses share a name. -/
theorem Status.name_inj {s s' : Status} :
    Enumeration.name s = Enumeration.name s' ↔ s = s' := by
  rw [← Status.value?_eq_some_iff, Status.value?_eq_some_iff.2 rfl, Option.some.injEq, eq_comm]

end WalletLedger
