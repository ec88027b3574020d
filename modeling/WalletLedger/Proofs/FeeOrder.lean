import Mathlib.Algebra.Order.Ring.Rat
import Mathlib.Tactic.Linarith
import Mathlib.Tactic.NormNum
import WalletLedger.Fee
import WalletLedger.Proofs.BinaryGrid

/-!
# The order of fees

A raw fee is three roundings to the grid of binary numbers, and each of them keeps the order. The
choice between the nearest whole number and the next one up keeps it too (`wholeUnits_mono`),
although the slack jumps from one whole number to the next: between the same two whole numbers a
larger raw fee is further from the lower one. `fee_mono` adds the minimum and the word that the
fee is put into.
-/

namespace WalletLedger.FeeSchedule

open Binary64 (OnGrid onGrid_nearest nearest_mono nearest_nonneg nearest_of_onGrid)

variable {s t : FeeSchedule} {a b : Amount} {x y : ℚ}

/-- The percentage is a number, and not one below zero. -/
structure IsNonneg (s : FeeSchedule) : Prop where
  finite : s.percentage.isFinite
  nonneg : 0 ≤ s.percentage.value

/-! ### The raw fee -/

theorem onGrid_raw (s : FeeSchedule) (a : Amount) : OnGrid (s.raw a) := onGrid_nearest _

theorem raw_nonneg (hs : s.IsNonneg) (a : Amount) : 0 ≤ s.raw a := by
  have hunits := nearest_nonneg (Nat.cast_nonneg (α := ℚ) a.units.toNat)
  have hshare := nearest_nonneg (div_nonneg hunits (by norm_num : (0 : ℚ) ≤ 100))
  exact nearest_nonneg (mul_nonneg hshare hs.nonneg)

/-- The raw fee follows the amount and the percentage through its three roundings. -/
theorem raw_mono (hs : s.IsNonneg) (hab : a ≤ b)
    (hst : s.percentage.value ≤ t.percentage.value) : s.raw a ≤ t.raw b := by
  have hunits : (a.units.toNat : ℚ) ≤ b.units.toNat := by
    exact_mod_cast UInt64.le_iff_toNat_le.1 hab
  have hshare := nearest_mono
    (div_le_div_of_nonneg_right (nearest_mono hunits) (by norm_num : (0 : ℚ) ≤ 100))
  have hpos : 0 ≤ Binary64.nearest (Binary64.nearest b.units.toNat / 100) :=
    nearest_nonneg (div_nonneg (nearest_nonneg (Nat.cast_nonneg _)) (by norm_num))
  exact nearest_mono (mul_le_mul hshare hst hs.nonneg hpos)

/-! ### Whole units -/

/-- The raw fee is close enough to a whole number to count as that number. -/
def CountsAsWhole (x : ℚ) : Prop :=
  |x - Rounding.nearest .awayFromZero x| ≤ slack (Rounding.nearest .awayFromZero x)

/-- On the grid the distance to the nearest whole number is compared as it is: the difference of
the two is not rounded. -/
theorem wholeUnits_eq (hx : OnGrid x) :
    wholeUnits x = if |x - Rounding.nearest .awayFromZero x| ≤
      slack (Rounding.nearest .awayFromZero x) then Rounding.nearest .awayFromZero x
      else x.ceil := by
  unfold wholeUnits
  dsimp only
  rw [nearest_of_onGrid (hx.sub_nearest _), Binary64.rat_abs_eq]

theorem wholeUnits_of_countsAsWhole (hx : OnGrid x) (h : CountsAsWhole x) :
    wholeUnits x = Rounding.nearest .awayFromZero x :=
  (wholeUnits_eq hx).trans (if_pos h)

theorem wholeUnits_of_not_countsAsWhole (hx : OnGrid x) (h : ¬CountsAsWhole x) :
    wholeUnits x = x.ceil :=
  (wholeUnits_eq hx).trans (if_neg h)

/-- A number that is close to a whole number comes to that number. -/
theorem wholeUnits_of_abs_sub_le {n : ℤ} (hx : OnGrid x) (hhalf : |x - n| < 1 / 2)
    (hslack : |x - n| ≤ slack n) : wholeUnits x = n := by
  have hnear : Rounding.nearest .awayFromZero x = n := Rounding.nearest_of_abs_sub_lt hhalf
  rw [wholeUnits_of_countsAsWhole hx (by rwa [CountsAsWhole, hnear]), hnear]

theorem wholeUnits_eq_or (x : ℚ) :
    wholeUnits x = Rounding.nearest .awayFromZero x ∨ wholeUnits x = x.ceil := by
  unfold wholeUnits
  dsimp only
  split
  · exact Or.inl rfl
  · exact Or.inr rfl

theorem wholeUnits_le_ceil (x : ℚ) : wholeUnits x ≤ x.ceil := by
  rcases wholeUnits_eq_or x with h | h
  · rw [h]
    exact Rounding.nearest_le_ceil _ x
  · exact h.le

theorem floor_le_wholeUnits (x : ℚ) : x.floor ≤ wholeUnits x := by
  rcases wholeUnits_eq_or x with h | h
  · rw [h]
    exact Rounding.floor_le_nearest _ x
  · rw [h]
    exact_mod_cast (Rat.floor_le x).trans Rat.le_ceil

theorem wholeUnits_nonneg (h : 0 ≤ x) : 0 ≤ wholeUnits x :=
  (Rat.le_floor_iff.2 (by simpa using h)).trans (floor_le_wholeUnits x)

/-- Whole units follow the raw fee. A larger one that counts as a whole number below it takes along
every smaller one from there on. -/
theorem wholeUnits_mono (hx : OnGrid x) (hy : OnGrid y) (h : x ≤ y) :
    wholeUnits x ≤ wholeUnits y := by
  by_cases hwhole : CountsAsWhole y
  · rw [wholeUnits_of_countsAsWhole hy hwhole]
    by_cases hwhole' : CountsAsWhole x
    · rw [wholeUnits_of_countsAsWhole hx hwhole']
      exact Rounding.nearest_mono _ h
    · rw [wholeUnits_of_not_countsAsWhole hx hwhole']
      by_contra hlt
      -- `y` went down to a whole number below `x`, and `x` is nearer to that number than `y` is
      have hbelow := Rat.lt_ceil_iff.1 (not_le.1 hlt)
      have hsame : Rounding.nearest .awayFromZero x = Rounding.nearest .awayFromZero y :=
        le_antisymm (Rounding.nearest_mono _ h)
          ((Rat.le_floor_iff.2 hbelow.le).trans (Rounding.floor_le_nearest _ x))
      refine hwhole' ?_
      unfold CountsAsWhole at hwhole ⊢
      rw [hsame, abs_of_pos (sub_pos.2 hbelow)]
      exact (sub_le_sub_right h _).trans ((le_abs_self _).trans hwhole)
  · rw [wholeUnits_of_not_countsAsWhole hy hwhole]
    exact (wholeUnits_le_ceil x).trans (Rat.ceil_le_iff.2 (h.trans Rat.le_ceil))

/-! ### Words -/

/-- No raw fee goes up to the first number that is too large for a word, since so far up the grid
has whole numbers only. -/
theorem wholeUnits_lt (hx : OnGrid x) (h : x < 2 ^ 64) : wholeUnits x < 2 ^ 64 := by
  refine (wholeUnits_le_ceil x).trans_lt ?_
  by_cases hlarge : 2 ^ (53 : ℤ) ≤ |x|
  · obtain ⟨n, rfl⟩ := hx.exists_intCast hlarge
    rw [Rat.ceil_intCast]
    exact_mod_cast h
  · have hsmall : x ≤ (2 ^ 53 : ℤ) := by
      push_cast
      exact (le_abs_self x).trans (not_le.1 hlarge).le
    exact (Rat.ceil_le_iff.2 hsmall).trans_lt (by norm_num)

theorem toNat_ofInt {n : ℤ} (h : 0 ≤ n) (hlt : n < 2 ^ 64) : ((UInt64.ofInt n).toNat : ℤ) = n := by
  unfold UInt64.ofInt
  rw [UInt64.toNat_ofNat', Int.emod_eq_of_lt h hlt]
  omega

/-- The fee as a whole number, if the word can hold the number of units. -/
theorem fee_toNat_of_nonneg (hlow : 0 ≤ wholeUnits (s.raw a)) (h : s.raw a < 2 ^ 64) :
    ((s.fee a).units.toNat : ℤ) = max (wholeUnits (s.raw a)) s.minimum.toNat := by
  have hword := toNat_ofInt hlow (wholeUnits_lt (onGrid_raw s a) h)
  unfold fee
  rw [UInt64.toNat_max, Nat.cast_max, hword]

/-- The fee is the larger of the whole units and the minimum while the raw fee fits in a word. -/
theorem fee_toNat (hs : s.IsNonneg) (h : s.raw a < 2 ^ 64) :
    ((s.fee a).units.toNat : ℤ) = max (wholeUnits (s.raw a)) s.minimum.toNat :=
  fee_toNat_of_nonneg (wholeUnits_nonneg (raw_nonneg hs a)) h

/-- A larger amount, a larger percentage and a larger minimum make for a larger fee. -/
theorem fee_mono (hs : s.IsNonneg) (ht : t.IsNonneg) (hab : a ≤ b)
    (hst : s.percentage.value ≤ t.percentage.value) (hmin : s.minimum ≤ t.minimum)
    (h : t.raw b < 2 ^ 64) : s.fee a ≤ t.fee b := by
  have hraw := raw_mono hs hab hst
  have hwhole := wholeUnits_mono (onGrid_raw s a) (onGrid_raw t b) hraw
  have hmin' : (s.minimum.toNat : ℤ) ≤ t.minimum.toNat := by
    exact_mod_cast UInt64.le_iff_toNat_le.1 hmin
  refine UInt64.le_iff_toNat_le.2 (Int.ofNat_le.1 ?_)
  rw [fee_toNat hs (hraw.trans_lt h), fee_toNat ht h]
  exact max_le_max hwhole hmin'

/-- The raw fee of 1.1 percent on a thousand lies just above eleven and goes down, that of 1.5
percent on a thousand and one goes up. -/
theorem fee_mono_at_thousand :
    let s : FeeSchedule := ⟨⟨0x3ff199999999999a⟩, 5⟩
    let t : FeeSchedule := ⟨⟨0x3ff8000000000000⟩, 10⟩
    s.IsNonneg ∧ t.IsNonneg ∧ s.percentage.value ≤ t.percentage.value ∧
      t.raw ⟨1001⟩ < 2 ^ 64 ∧ s.fee ⟨1000⟩ ≤ t.fee ⟨1001⟩ := by
  intro s t
  have hs : s.IsNonneg := ⟨by decide +kernel, by decide +kernel⟩
  have ht : t.IsNonneg := ⟨by decide +kernel, by decide +kernel⟩
  have hst : s.percentage.value ≤ t.percentage.value := by decide +kernel
  have hraw : t.raw ⟨1001⟩ < 2 ^ 64 := by decide +kernel
  exact ⟨hs, ht, hst, hraw, fee_mono hs ht (by decide) hst (by decide) hraw⟩

end WalletLedger.FeeSchedule
