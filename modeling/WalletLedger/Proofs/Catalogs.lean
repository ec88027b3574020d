import Mathlib.Data.List.Forall2
import WalletLedger.Proofs.Checks

/-!
# Catalogs are read whole or not at all

A row makes an option exactly if none of its unit counts is negative, and the option carries the row
over unchanged (`LiquidityOption.ofRow_eq_ok_iff`). A catalog is a list of rows, and its options are
those of all rows (`Catalog.options_eq_ok_iff`) unless there is a first row that makes none
(`Catalog.options_of_first_not_isSound`). `Catalog.read_whole_or_none` puts this together with what
is logged, and says what comes of reading two catalogs as one.
-/

namespace WalletLedger

/-! ### A row alone -/

namespace CatalogRow

/-- None of the unit counts of the row is negative. -/
def IsSound (row : CatalogRow) : Prop := ∀ n ∈ Catalog.unitCounts row, 0 ≤ n.toInt

instance (row : CatalogRow) : Decidable row.IsSound :=
  List.decidableBAll (fun n : Int64 => 0 ≤ n.toInt) (Catalog.unitCounts row)

/-- The option says what the row says; unit counts are the same numbers without a sign. -/
structure CarriedBy (row : CatalogRow) (o : LiquidityOption) : Prop where
  id : o.id = row.id
  title : o.title = row.title
  tradeUpTo : (o.tradeUpTo.units.toNat : Int) = row.tradeUpTo.toInt
  minDeposit : (o.minDeposit.units.toNat : Int) = row.minDeposit.toInt
  maxDeposit : (o.maxDeposit.units.toNat : Int) = row.maxDeposit.toInt
  percentage : o.fee.percentage = row.feePercentage
  minimum : (o.fee.minimum.toNat : Int) = row.minFee.toInt
  leverage : o.leverage = row.leverage

end CatalogRow

namespace LiquidityOption

variable {row : CatalogRow} {o : LiquidityOption}

theorem ofRow_eq_ok_iff : ofRow row = .ok o ↔ row.CarriedBy o := by
  simp only [ofRow, bind_eq_ok_iff, Amount.ofUnits_eq_ok_iff]
  constructor
  · rintro ⟨trade, htrade, least, hleast, most, hmost, fee, hfee, ⟨⟩⟩
    exact ⟨rfl, rfl, htrade, hleast, hmost, rfl, hfee, rfl⟩
  · obtain ⟨id, title, trade, least, most, ⟨percentage, minimum⟩, leverage⟩ := o
    rintro ⟨rfl, rfl, htrade, hleast, hmost, rfl, hfee, rfl⟩
    exact ⟨trade, htrade, least, hleast, most, hmost, ⟨minimum⟩, hfee, rfl⟩

/-- The one check of a row fails exactly if the row is not sound. -/
theorem first_unitCounts (row : CatalogRow) :
    Check.first [⟨(Catalog.unitCounts row).all fun n => 0 ≤ n.toInt, AmountError.invalidAmount⟩] =
      if row.IsSound then none else some .invalidAmount := by
  rw [Check.first_cons]
  by_cases h : row.IsSound
  · rw [if_pos h, if_pos (by simpa [CatalogRow.IsSound] using h)]
    rfl
  · rw [if_neg h, if_neg (by simpa [CatalogRow.IsSound] using h)]

theorem exists_ofRow_eq_ok (h : row.IsSound) : ∃ o, ofRow row = .ok o := by
  have hfollows := Catalog.follows_ofRow row
  cases hrow : ofRow row with
  | ok o => exact ⟨o, rfl⟩
  | error e =>
    rw [hrow, Follows.error_iff, first_unitCounts, if_pos h] at hfollows
    cases hfollows

theorem ofRow_of_not_isSound (h : ¬row.IsSound) : ofRow row = .error .invalidAmount := by
  have hfollows := Catalog.follows_ofRow row
  cases hrow : ofRow row with
  | ok o =>
    rw [hrow, Follows.ok_iff, first_unitCounts, if_neg h] at hfollows
    cases hfollows
  | error e =>
    rw [hrow, Follows.error_iff, first_unitCounts, if_neg h] at hfollows
    cases hfollows
    rfl

end LiquidityOption

/-! ### Rows one after the other -/

section Traversal

variable {ε α β : Type} {f : α → Except ε β} {xs : List α} {ys : List β} {e : ε}

theorem mapM_eq_ok_iff : xs.mapM f = .ok ys ↔ List.Forall₂ (fun x y => f x = .ok y) xs ys := by
  induction xs generalizing ys with
  | nil => simp [pure, Except.pure, eq_comm]
  | cons x rest ih =>
    simp only [List.mapM_cons, bind_eq_ok_iff, ih, List.forall₂_cons_left_iff]
    constructor
    · rintro ⟨y, hy, others, hothers, ⟨⟩⟩
      exact ⟨y, others, hy, hothers, rfl⟩
    · rintro ⟨y, others, hy, hothers, rfl⟩
      exact ⟨y, hy, others, hothers, rfl⟩

/-- What comes after the first failure is not looked at. -/
theorem mapM_append_cons_of_error {before after : List α} {x : α}
    (hbefore : ∀ y ∈ before, ∃ b, f y = .ok b) (hx : f x = .error e) :
    (before ++ x :: after).mapM f = .error e := by
  induction before with
  | nil =>
    rw [List.nil_append, List.mapM_cons, hx]
    rfl
  | cons y rest ih =>
    rw [List.forall_mem_cons] at hbefore
    obtain ⟨⟨b, hb⟩, hrest⟩ := hbefore
    rw [List.cons_append, List.mapM_cons, hb, ih hrest]
    rfl

end Traversal

namespace Catalog

variable {rows : List CatalogRow} {os : List LiquidityOption}

/-- A list of rows of which not all are sound has a first one that is not. -/
theorem exists_first_not_isSound (h : ¬∀ row ∈ rows, row.IsSound) :
    ∃ before bad after, rows = before ++ bad :: after ∧ (∀ row ∈ before, row.IsSound) ∧
      ¬bad.IsSound := by
  have hfound : (rows.find? fun row => !decide row.IsSound).isSome := by
    simpa [List.find?_isSome] using h
  obtain ⟨bad, hbad⟩ := Option.isSome_iff_exists.1 hfound
  obtain ⟨hbad, before, after, hrows, hbefore⟩ := List.find?_eq_some_iff_append.1 hbad
  exact ⟨before, bad, after, hrows, by simpa using hbefore, by simpa using hbad⟩

/-- A catalog has options exactly if every row carries over to one. -/
theorem options_eq_ok_iff : options rows = .ok os ↔ List.Forall₂ CatalogRow.CarriedBy rows os := by
  simp only [options, mapM_eq_ok_iff, mapError_eq_ok_iff, LiquidityOption.ofRow_eq_ok_iff]

theorem exists_carriedBy (h : ∀ row ∈ rows, row.IsSound) :
    ∃ os, List.Forall₂ CatalogRow.CarriedBy rows os := by
  induction rows with
  | nil => exact ⟨[], .nil⟩
  | cons row rest ih =>
    rw [List.forall_mem_cons] at h
    obtain ⟨o, ho⟩ := LiquidityOption.exists_ofRow_eq_ok h.1
    obtain ⟨os, hos⟩ := ih h.2
    exact ⟨o :: os, .cons (LiquidityOption.ofRow_eq_ok_iff.1 ho) hos⟩

theorem options_of_first_not_isSound {before after : List CatalogRow} {bad : CatalogRow}
    (hbefore : ∀ row ∈ before, row.IsSound) (hbad : ¬bad.IsSound) :
    options (before ++ bad :: after) = .error (bad, .invalidAmount) := by
  refine mapM_append_cons_of_error (fun row hrow => ?_) ?_
  · obtain ⟨o, ho⟩ := LiquidityOption.exists_ofRow_eq_ok (hbefore row hrow)
    exact ⟨o, by rw [ho]; rfl⟩
  · rw [LiquidityOption.ofRow_of_not_isSound hbad]
    rfl

/-! ### Reading -/

theorem rejectionLine_invalidAmount (row : CatalogRow) :
    rejectionLine row .invalidAmount = ⟨.warning, "liquidity option " ++
      Decimal.signedText row.id.toInt ++ " rejected: invalid_amount"⟩ := by
  have hname : Enumeration.name AmountError.invalidAmount = "invalid_amount" := rfl
  rw [rejectionLine, hname, String.append_assoc]
  rfl

theorem read_of_carriedBy (h : List.Forall₂ CatalogRow.CarriedBy rows os) :
    read rows = ⟨.ok os, [countLine rows.length]⟩ := by
  rw [read, options_eq_ok_iff.2 h, h.length_eq]

theorem read_of_first_not_isSound {before after : List CatalogRow} {bad : CatalogRow}
    (hbefore : ∀ row ∈ before, row.IsSound) (hbad : ¬bad.IsSound) :
    read (before ++ bad :: after) =
      ⟨.error .invalidAmount, [rejectionLine bad .invalidAmount]⟩ := by
  rw [read, options_of_first_not_isSound hbefore hbad]

/-- Rows after a catalog that is refused are not looked at. -/
theorem read_append_of_not_isSound (h : ¬∀ row ∈ rows, row.IsSound) (others : List CatalogRow) :
    read (rows ++ others) = read rows := by
  obtain ⟨before, bad, after, rfl, hbefore, hbad⟩ := exists_first_not_isSound h
  rw [List.append_assoc, List.cons_append, read_of_first_not_isSound hbefore hbad,
    read_of_first_not_isSound hbefore hbad]

/-- Sound rows before a catalog that is refused change nothing. -/
theorem read_append_of_isSound (h : ∀ row ∈ rows, row.IsSound) {others : List CatalogRow}
    (hothers : ¬∀ row ∈ others, row.IsSound) : read (rows ++ others) = read others := by
  obtain ⟨before, bad, after, rfl, hbefore, hbad⟩ := exists_first_not_isSound hothers
  have hall : ∀ row ∈ rows ++ before, row.IsSound := by
    intro row hrow
    rcases List.mem_append.1 hrow with hrow | hrow
    · exact h row hrow
    · exact hbefore row hrow
  rw [← List.append_assoc, read_of_first_not_isSound hall hbad,
    read_of_first_not_isSound hbefore hbad]

/-- Reading fails if some row is not sound, and for no other reason. -/
theorem result_read_eq_error_iff {e : AmountError} :
    (read rows).result = .error e ↔ e = .invalidAmount ∧ ∃ row ∈ rows, ¬row.IsSound := by
  by_cases h : ∀ row ∈ rows, row.IsSound
  · obtain ⟨os, hos⟩ := exists_carriedBy h
    rw [read_of_carriedBy hos]
    simpa using fun _ => h
  · obtain ⟨before, bad, after, rfl, hbefore, hbad⟩ := exists_first_not_isSound h
    rw [read_of_first_not_isSound hbefore hbad]
    simpa [eq_comm] using fun _ => ⟨bad, by simp, hbad⟩

/-- Two catalogs read as one: the first failure decides, and otherwise the options follow one
another under a single count. -/
theorem read_append (rows others : List CatalogRow) :
    read (rows ++ others) =
      match (read rows).result, (read others).result with
      | .error _, _ => read rows
      | .ok _, .error _ => read others
      | .ok os, .ok ps => ⟨.ok (os ++ ps), [countLine (rows.length + others.length)]⟩ := by
  by_cases h : ∀ row ∈ rows, row.IsSound
  · obtain ⟨os, hos⟩ := exists_carriedBy h
    by_cases hothers : ∀ row ∈ others, row.IsSound
    · obtain ⟨ps, hps⟩ := exists_carriedBy hothers
      rw [read_of_carriedBy (List.rel_append hos hps), read_of_carriedBy hos,
        read_of_carriedBy hps, List.length_append]
    · rw [read_append_of_isSound h hothers, read_of_carriedBy hos]
      obtain ⟨before, bad, after, rfl, hbefore, hbad⟩ := exists_first_not_isSound hothers
      rw [read_of_first_not_isSound hbefore hbad]
  · rw [read_append_of_not_isSound h]
    obtain ⟨before, bad, after, rfl, hbefore, hbad⟩ := exists_first_not_isSound h
    rw [read_of_first_not_isSound hbefore hbad]

/-- **A catalog is read whole or not at all.** It is refused exactly if some row has a negative unit
count; the first such row is logged and nothing else. Otherwise each row is carried over to an
option in its place, and the number of rows is logged. So two catalogs read as one come to the error
of the first that is refused, or to the options of both. -/
theorem read_whole_or_none (rows : List CatalogRow) :
    (∀ e, (read rows).result = .error e ↔
      e = .invalidAmount ∧ ∃ row ∈ rows, ¬row.IsSound) ∧
    (∀ before bad after, rows = before ++ bad :: after → (∀ row ∈ before, row.IsSound) →
      ¬bad.IsSound →
        read rows = ⟨.error .invalidAmount, [⟨.warning, "liquidity option " ++
          Decimal.signedText bad.id.toInt ++ " rejected: invalid_amount"⟩]⟩) ∧
    ((∀ row ∈ rows, row.IsSound) → ∃ os,
      List.Forall₂ (fun row o => LiquidityOption.ofRow row = .ok o ∧ row.CarriedBy o) rows os ∧
      read rows = ⟨.ok os, [⟨.debug, "mapped " ++ Decimal.text rows.length ++
        " liquidity options"⟩]⟩) ∧
    ∀ others, read (rows ++ others) =
      match (read rows).result, (read others).result with
      | .error _, _ => read rows
      | .ok _, .error _ => read others
      | .ok os, .ok ps => ⟨.ok (os ++ ps), [⟨.debug, "mapped " ++
          Decimal.text (rows.length + others.length) ++ " liquidity options"⟩]⟩ := by
  refine ⟨fun e => result_read_eq_error_iff, ?_, fun h => ?_, read_append rows⟩
  · rintro before bad after rfl hbefore hbad
    rw [read_of_first_not_isSound hbefore hbad, rejectionLine_invalidAmount]
  · obtain ⟨os, hos⟩ := exists_carriedBy h
    refine ⟨os, hos.imp fun row o ho => ?_, read_of_carriedBy hos⟩
    exact ⟨LiquidityOption.ofRow_eq_ok_iff.2 ho, ho⟩

/-- The second of three rows is the first that is wrong, and the row before it has its number. -/
theorem read_whole_or_none_second :
    let row (id minFee : Int64) : CatalogRow := ⟨id, "Pro", 10, 1, 5, .one, minFee, .one⟩
    let rows := [row 7 0, row 7 (-1), row 8 (-2)]
    (∀ r ∈ [row 7 0], r.IsSound) ∧ ¬(row 7 (-1)).IsSound ∧
    read rows = ⟨.error .invalidAmount,
      [⟨.warning, "liquidity option 7 rejected: invalid_amount"⟩]⟩ ∧
    ∃ os, read [row 7 0] = ⟨.ok os, [⟨.debug, "mapped 1 liquidity options"⟩]⟩ := by
  intro row rows
  have hfirst : ∀ r ∈ [row 7 0], r.IsSound := by decide
  have hsecond : ¬(row 7 (-1)).IsSound := by decide
  have hseven : Decimal.signedText 7 = "7" := by decide +kernel
  have hone : Decimal.text 1 = "1" := by decide +kernel
  obtain ⟨-, hrefused, -⟩ := read_whole_or_none rows
  have hread := hrefused [row 7 0] _ [row 8 (-2)] rfl hfirst hsecond
  change _ = Reading.mk _ [⟨_, "liquidity option " ++ Decimal.signedText 7 ++ _⟩] at hread
  rw [hseven] at hread
  obtain ⟨os, -, hcount⟩ := (read_whole_or_none [row 7 0]).2.2.1 hfirst
  change _ = Reading.mk _ [⟨_, "mapped " ++ Decimal.text 1 ++ _⟩] at hcount
  rw [hone] at hcount
  exact ⟨hfirst, hsecond, hread, os, hcount⟩

end Catalog

end WalletLedger
