import Mathlib.Algebra.Order.Ring.Rat
import Mathlib.Tactic.Linarith
import Mathlib.Tactic.NormNum
import Mathlib.Tactic.Positivity
import Mathlib.Tactic.Ring
import WalletLedger.Proofs.FeeOrder

/-!
# How far a fee is from the exact share

The exact share of an amount is a rational number. Two things lie between it and the fee: three
roundings to the grid of binary numbers, and the slack by which a raw fee may go down to a whole
number. The roundings are off by at most `2 ^ -51` of the share (`rounds_raw_or`), the slack is
`10 ^ -9` of the whole number up to two roundings (`rounds_slack`), and going up adds less than one
unit. `fee_bounds` puts the three together.
-/

namespace WalletLedger.FeeSchedule

open Binary64 (OnGrid Rounds onGrid_intCast nearest_mono nearest_of_onGrid two_zpow_le_iff
  two_zpow_pos)

variable {s : FeeSchedule} {a : Amount} {x y : ℚ}

/-- The percentage of the amount, without any rounding. -/
def share (s : FeeSchedule) (a : Amount) : ℚ := a.units.toNat * s.percentage.value / 100

theorem share_nonneg (hs : s.IsNonneg) (a : Amount) : 0 ≤ s.share a :=
  div_nonneg (mul_nonneg (Nat.cast_nonneg _) hs.nonneg) (by norm_num)

theorem raw_eq_zero (h : a.units = 0 ∨ s.percentage.value = 0) : s.raw a = 0 := by
  unfold raw
  rcases h with h | h
  · simp [h]
  · simp [h]

theorem raw_eq_zero_of_share (h : s.share a = 0) : s.raw a = 0 :=
  raw_eq_zero (by simpa [share, ← UInt64.toNat_inj] using h)

/-! ### The roundings of the raw fee -/

/-- The smallest numbers are far below any bound that matters for a fee. -/
theorem smallest_le : (2 : ℚ) ^ (-1022 : ℤ) ≤ 1 / 10 ^ 10 :=
  calc (2 : ℚ) ^ (-1022 : ℤ) ≤ 2 ^ (-34 : ℤ) := two_zpow_le_iff.2 (by decide)
    _ ≤ 1 / 10 ^ 10 := by norm_num

/-- The first two roundings are of numbers far above the smallest ones. -/
theorem rounds_hundredth (h : a.units ≠ 0) :
    Rounds 2 (a.units.toNat / 100) (Binary64.nearest (Binary64.nearest a.units.toNat / 100)) := by
  have hone : (1 : ℚ) ≤ a.units.toNat := by
    have : a.units.toNat ≠ 0 := by simpa [← UInt64.toNat_inj] using h
    exact_mod_cast Nat.one_le_iff_ne_zero.2 this
  have hone' : (1 : ℚ) ≤ Binary64.nearest a.units.toNat := by
    have hgrid := nearest_of_onGrid (onGrid_intCast (n := 1) (by norm_num))
    have := nearest_mono hone
    rwa [← Rat.intCast_one, hgrid, Rat.intCast_one] at this
  have hsmall : (2 : ℚ) ^ (-1022 : ℤ) ≤ 1 / 100 := smallest_le.trans (by norm_num)
  have hunits := (Rounds.refl (a.units.toNat : ℚ)).succ (by linarith)
  rw [div_eq_mul_one_div, div_eq_mul_one_div (Binary64.nearest _)]
  exact (hunits.mul_right (by norm_num)).succ (by linarith)

theorem rounds_product (hs : s.IsNonneg) (h : a.units ≠ 0) :
    Rounds 2 (s.share a)
      (Binary64.nearest (Binary64.nearest a.units.toNat / 100) * s.percentage.value) := by
  have hshare : s.share a = a.units.toNat / 100 * s.percentage.value := by
    unfold share
    ring
  rw [hshare]
  exact (rounds_hundredth h).mul_right hs.nonneg

/-! ### The slack -/

theorem slack_eq (n : ℤ) : slack n = Binary64.nearest (tolerance * max (1 : ℚ) n) := by
  unfold slack
  rw [max_def_lt]

/-- The slack is two roundings away from a thousand-millionth of the whole number. -/
theorem rounds_slack (n : ℤ) : Rounds 2 (1 / 10 ^ 9 * max (1 : ℚ) n) (slack n) := by
  have hmax : (1 : ℚ) ≤ max (1 : ℚ) n := le_max_left 1 _
  have htolerance : Rounds 1 (1 / 10 ^ 9) tolerance := by
    unfold tolerance
    norm_num only
    exact (Rounds.refl _).succ (smallest_le.trans (by norm_num))
  have hsmall : (2 : ℚ) ^ (-1022 : ℤ) ≤ tolerance := by
    have := htolerance.mul_le (c := 1 / 10) (by norm_num) (by norm_num)
    exact smallest_le.trans (le_trans (by norm_num) this)
  rw [slack_eq]
  refine (htolerance.mul_right (zero_le_one.trans hmax)).succ (hsmall.trans ?_)
  exact le_mul_of_one_le_right ((two_zpow_pos _).le.trans hsmall) hmax

theorem slack_le (n : ℤ) : slack n ≤ max (1 : ℚ) n / 10 ^ 9 * (1 + 1 / 2 ^ 51) := by
  have h := (rounds_slack n).le_mul (c := 1 + 1 / 2 ^ 51) (by positivity) (by norm_num)
  rwa [one_div_mul_eq_div] at h

theorem le_slack (n : ℤ) : max (1 : ℚ) n / 10 ^ 9 * (1 - 1 / 2 ^ 51) ≤ slack n := by
  have h := (rounds_slack n).mul_le (c := 1 - 1 / 2 ^ 51) (by positivity) (by norm_num)
  rwa [one_div_mul_eq_div] at h

/-- The slack takes away little of a raw fee, since no whole number near it is much larger. -/
theorem sub_le_wholeUnits (hx : OnGrid x) :
    x - 16 / 10 ^ 10 * max 1 x ≤ wholeUnits x := by
  have hmax : x ≤ max 1 x := le_max_right 1 x
  have hmax' : 1 ≤ max 1 x := le_max_left 1 x
  by_cases hwhole : CountsAsWhole x
  · rw [wholeUnits_of_countsAsWhole hx hwhole]
    have hnear := (abs_le.1 (Rounding.abs_nearest_sub_le .awayFromZero x)).2
    have hlarge : max (1 : ℚ) (Rounding.nearest .awayFromZero x) ≤ 3 / 2 * max 1 x :=
      max_le (by linarith) (by linarith)
    have hslack := slack_le (Rounding.nearest .awayFromZero x)
    have hdistance := (abs_le.1 hwhole).2
    linarith
  · rw [wholeUnits_of_not_countsAsWhole hx hwhole]
    have := Rat.le_ceil (x := x)
    linarith

theorem wholeUnits_zero : wholeUnits 0 = 0 := by
  have hfloor := floor_le_wholeUnits 0
  have hceil := wholeUnits_le_ceil 0
  rw [← Rat.intCast_zero, Rat.floor_intCast] at hfloor
  rw [← Rat.intCast_zero, Rat.ceil_intCast] at hceil
  exact le_antisymm hceil hfloor

/-! ### The fee -/

/-- A raw fee is three roundings of the exact share, unless both are negligible. -/
theorem rounds_raw_or (hs : s.IsNonneg) (a : Amount) :
    Rounds 3 (s.share a) (s.raw a) ∨ s.share a ≤ 1 / 10 ^ 9 ∧ s.raw a ≤ 1 / 10 ^ 9 := by
  by_cases ha : a.units = 0
  · left
    have hshare : s.share a = 0 := by simp [share, ha]
    rw [hshare, raw_eq_zero (Or.inl ha)]
    exact ⟨by simp, by simp⟩
  have hproduct := rounds_product hs ha
  by_cases hsmall : 2 ^ (-1022 : ℤ) ≤
      Binary64.nearest (Binary64.nearest a.units.toNat / 100) * s.percentage.value
  · exact Or.inl (hproduct.succ hsmall)
  · right
    have hgrid : OnGrid (2 ^ (-1022 : ℤ)) := ⟨1, -1022, by norm_num, by decide, by simp⟩
    have hraw := nearest_mono (not_le.1 hsmall).le
    rw [nearest_of_onGrid hgrid] at hraw
    have hhalf := hproduct.mul_le (c := 1 / 2) (share_nonneg hs a) (by norm_num)
    have hlow := hhalf.trans ((not_le.1 hsmall).le.trans smallest_le)
    constructor
    · linarith
    · exact hraw.trans (smallest_le.trans (by norm_num))

/-- A share that is not negligible has nothing but roundings between it and the raw fee. -/
theorem rounds_raw (hs : s.IsNonneg) (h : s.share a = 0 ∨ 1 / 10 ^ 9 < s.share a) :
    Rounds 3 (s.share a) (s.raw a) := by
  rcases rounds_raw_or hs a with hrounds | ⟨hsmall, -⟩
  · exact hrounds
  · have hzero : s.share a = 0 := h.resolve_right (not_lt.2 hsmall)
    rw [hzero, raw_eq_zero_of_share hzero]
    exact (Rounds.refl 0).mono le_rfl (by decide)

/-- A share that a signed word can hold is not rounded out of the range of unsigned ones. -/
theorem lt_of_rounds (h : Rounds 4 x y) (hx : 0 ≤ x) (hle : x ≤ 2 ^ 63) : y < 2 ^ 64 := by
  have := h.le_mul (c := 3 / 2) hx (by norm_num)
  linarith

theorem abs_sub_le_of_rounds (h : Rounds 3 x y) (hx : 0 ≤ x) : |y - x| ≤ x * 2 ^ (-51 : ℤ) :=
  h.abs_sub_le hx (by norm_num) (by norm_num)

theorem le_wholeUnits_raw (hs : s.IsNonneg) (a : Amount) :
    s.share a - 2 / 10 ^ 9 * max 1 (s.share a) ≤ wholeUnits (s.raw a) := by
  have hone : 1 ≤ max 1 (s.share a) := le_max_left 1 _
  have hshare : s.share a ≤ max 1 (s.share a) := le_max_right 1 _
  rcases rounds_raw_or hs a with hrounds | ⟨hsmall, -⟩
  · obtain ⟨hlow, hhigh⟩ := abs_le.1 (abs_sub_le_of_rounds hrounds (share_nonneg hs a))
    have hnoise : s.share a * 2 ^ (-51 : ℤ) ≤ 1 / 10 ^ 10 * max 1 (s.share a) := by
      rw [mul_comm]
      exact mul_le_mul (by norm_num) hshare (share_nonneg hs a) (by norm_num)
    generalize s.share a * 2 ^ (-51 : ℤ) = noise at hlow hhigh hnoise
    have hmax : max 1 (s.raw a) ≤ 9 / 8 * max 1 (s.share a) :=
      max_le (by linarith) (by linarith)
    have hwhole := sub_le_wholeUnits (onGrid_raw s a)
    linarith
  · have : (0 : ℚ) ≤ wholeUnits (s.raw a) := by
      exact_mod_cast wholeUnits_nonneg (raw_nonneg hs a)
    linarith

theorem wholeUnits_raw_lt (hs : s.IsNonneg) (a : Amount) :
    wholeUnits (s.raw a) < s.share a + 1 + s.share a * 2 ^ (-51 : ℤ) := by
  have hshare := share_nonneg hs a
  have hceil : (wholeUnits (s.raw a) : ℚ) ≤ (s.raw a).ceil := by
    exact_mod_cast wholeUnits_le_ceil (s.raw a)
  rcases rounds_raw_or hs a with hrounds | ⟨-, hsmall⟩
  · obtain ⟨-, hhigh⟩ := abs_le.1 (abs_sub_le_of_rounds hrounds hshare)
    have hlt := Rat.ceil_lt (x := s.raw a)
    linarith
  · -- a negligible fee is at most one unit, and none at all if there is nothing to share
    have hnoise : 0 ≤ s.share a * 2 ^ (-51 : ℤ) := mul_nonneg hshare (two_zpow_pos _).le
    rcases hshare.eq_or_lt with hzero | hpos
    · rw [raw_eq_zero_of_share hzero.symm, wholeUnits_zero, Int.cast_zero]
      linarith
    · have hone : (s.raw a).ceil ≤ 1 := Rat.ceil_le_iff.2 (by norm_num at hsmall ⊢; linarith)
      have : ((s.raw a).ceil : ℚ) ≤ 1 := by exact_mod_cast hone
      linarith

/-- The fee is never below the minimum, and is the minimum if there is nothing to share. Else it is
a whole number that the slack and the roundings take below the exact share, and less than one unit
and the roundings take above it. -/
theorem fee_bounds (hs : s.IsNonneg) (h : s.raw a < 2 ^ 64) :
    (∃ f : ℤ, ((s.fee a).units.toNat : ℤ) = max f s.minimum.toNat ∧
      s.share a - 2 / 10 ^ 9 * max 1 (s.share a) ≤ f ∧
      f < s.share a + 1 + s.share a * 2 ^ (-51 : ℤ)) ∧
    s.minimum ≤ (s.fee a).units ∧
    (a.units = 0 ∨ s.percentage.value = 0 → (s.fee a).units = s.minimum) := by
  have hfee := fee_toNat hs h
  refine ⟨⟨wholeUnits (s.raw a), hfee, le_wholeUnits_raw hs a, wholeUnits_raw_lt hs a⟩, ?_, ?_⟩
  · rw [UInt64.le_iff_toNat_le]
    omega
  · intro hnothing
    rw [raw_eq_zero hnothing, wholeUnits_zero] at hfee
    rw [← UInt64.toNat_inj]
    omega

/-- 1.1 percent of nothing and of a thousand. -/
theorem fee_bounds_at_thousand :
    let s : FeeSchedule := ⟨⟨0x3ff199999999999a⟩, 5⟩
    s.IsNonneg ∧ s.raw ⟨1000⟩ < 2 ^ 64 ∧ (s.fee ⟨0⟩).units = 5 ∧
      ∃ f : ℤ, ((s.fee ⟨1000⟩).units.toNat : ℤ) = max f 5 ∧
        s.share ⟨1000⟩ - 2 / 10 ^ 9 * max 1 (s.share ⟨1000⟩) ≤ f ∧
        f < s.share ⟨1000⟩ + 1 + s.share ⟨1000⟩ * 2 ^ (-51 : ℤ) := by
  intro s
  have hs : s.IsNonneg := ⟨by decide +kernel, by decide +kernel⟩
  have hraw : s.raw ⟨1000⟩ < 2 ^ 64 := by decide +kernel
  obtain ⟨-, -, hnothing⟩ := fee_bounds hs (a := ⟨0⟩) (by decide +kernel)
  exact ⟨hs, hraw, hnothing (Or.inl rfl), (fee_bounds hs hraw).1⟩

end WalletLedger.FeeSchedule
