/-!
# Name tables

Values that people read and write are written by name. A `NameTable` lists names with the values
they stand for, and both ways of reading it take the first row that fits. When no name and no value
occurs twice (`NameTable.OneToOne`), the two readings undo one another.
-/

namespace WalletLedger

/-- Names and the values they stand for, in the order in which they are searched. -/
structure NameTable (α : Type) where
  rows : List (String × α)

namespace NameTable

variable {α : Type}

/-- The names of the table, from the first row to the last. -/
def names (t : NameTable α) : List String := t.rows.map Prod.fst

/-- The values of the table, from the first row to the last. -/
def values (t : NameTable α) : List α := t.rows.map Prod.snd

/-- The value of the first row with this name. -/
def value? (t : NameTable α) (name : String) : Option α :=
  (t.rows.find? fun row => row.1 == name).map Prod.snd

/-- The name of the first row with this value. -/
def name? [DecidableEq α] (t : NameTable α) (value : α) : Option String :=
  (t.rows.find? fun row => row.2 == value).map Prod.fst

/-- No name stands for two values, and no value has two names. -/
structure OneToOne (t : NameTable α) : Prop where
  names_nodup : t.names.Nodup
  values_nodup : t.values.Nodup

/-- A name that is found stands in the table. -/
theorem mem_names_of_value? {t : NameTable α} {name : String} {value : α}
    (h : t.value? name = some value) : name ∈ t.names := by
  obtain ⟨row, found, -⟩ := Option.map_eq_some_iff.1 h
  have named : row.1 = name := by simpa using List.find?_some found
  exact named ▸ List.mem_map_of_mem (List.mem_of_find?_eq_some found)

end NameTable

end WalletLedger
