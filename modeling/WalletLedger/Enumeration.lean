import WalletLedger.Names

/-!
# Enumerations

An `Enumeration` is a finite type whose values are written by name and stored as a code. A stored
code need not be one of those: `Coded α` is either a listed value of `α` or a bare number, and its
name is then `unknown`.
-/

namespace WalletLedger

/-- A type whose values have a name each, for people, and a code each, for storage. Only
enumerations that callers write are read from the input (`ofInput?`); the library writes the others
and takes none of them from outside. -/
class Enumeration (α : Type) [DecidableEq α] where
  table : NameTable α
  code : α → UInt32
  ofInput? : String → Option α := fun _ => none

/-- A stored code: a listed value, or a number under which no value is listed. -/
inductive Coded (α : Type) where
  | listed (value : α)
  | unlisted (code : UInt32)
  deriving DecidableEq

namespace Coded

variable {α : Type} [DecidableEq α] [Enumeration α]

/-- What a number stands for: the value of that code where there is one. -/
def ofCode (code : UInt32) : Coded α :=
  match (Enumeration.table (α := α)).values.find? fun value => Enumeration.code value == code with
  | some value => .listed value
  | none => .unlisted code

/-- The number by which this is stored. -/
def code : Coded α → UInt32
  | .listed value => Enumeration.code value
  | .unlisted code => code

/-- The name in the table, which an unlisted code does not have. -/
def name? : Coded α → Option String
  | .listed value => (Enumeration.table (α := α)).name? value
  | .unlisted _ => none

/-- The name shown to people; `unknown` stands for what has none. -/
def name (c : Coded α) : String := c.name?.getD "unknown"

end Coded

/-- The name of a value of an enumeration. -/
def Enumeration.name {α : Type} [DecidableEq α] [Enumeration α] (value : α) : String :=
  (Coded.listed value).name

end WalletLedger
