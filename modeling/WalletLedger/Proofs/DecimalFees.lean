import Mathlib.Algebra.Order.Ring.Rat
import Mathlib.Tactic.Linarith
import Mathlib.Tactic.NormNum
import Mathlib.Tactic.Positivity
import Mathlib.Tactic.Ring
import WalletLedger.Proofs.FeeCeiling

/-!
# Fees at decimal percentages

People write percentages as decimal numbers, and few of those are binary numbers. Where leniency and
noise together are smaller than any fraction of a unit that a share can have, the fee does not show
the difference (`wholeUnits_eq_ceil`): what lies on a whole number stays there and what lies above
one goes up. With up to six decimals that is so as long as the amount times the digits of the
percentage is at most 999999000 (`fee_of_decimal`).
-/

namespace WalletLedger.FeeSchedule

open Binary64 (OnGrid Rounds nearest_nonneg nearest_zero)

variable {s : FeeSchedule} {a : Amount} {x y : ℚ} {k d : ℕ}

/-! ### Shares with a denominator -/

section Denominators

variable {N D m : ℤ}

/-- A number above a whole number is above it by one unit fraction at least. -/
theorem one_div_le_sub_of_lt (hD : 0 < D) (h : (m : ℚ) < N / D) : (1 : ℚ) / D ≤ N / D - m := by
  have hpos : (0 : ℚ) < D := by exact_mod_cast hD
  rw [lt_div_iff₀ hpos] at h
  have hone : (1 : ℚ) ≤ N - m * D := by
    have : m * D < N := by exact_mod_cast h
    exact_mod_cast (by omega : 1 ≤ N - m * D)
  calc (1 : ℚ) / D ≤ (N - m * D) / D := div_le_div_of_nonneg_right hone hpos.le
    _ = N / D - m := by rw [sub_div, mul_div_cancel_right₀ _ hpos.ne']

theorem one_div_le_sub_of_gt (hD : 0 < D) (h : (N : ℚ) / D < m) : (1 : ℚ) / D ≤ m - N / D := by
  have hneg : ((-m : ℤ) : ℚ) < (-N : ℤ) / D := by
    push_cast
    rw [neg_div]
    exact neg_lt_neg h
  have hsub := one_div_le_sub_of_lt hD hneg
  push_cast at hsub
  rwa [neg_div, sub_neg_eq_add, neg_add_eq_sub] at hsub

end Denominators

/-- Where leniency and noise are less than a unit, noise is the smaller of the two. -/
theorem noise_le_leniency (h : leniency x + noise x < 1) : noise x ≤ leniency x := by
  have hmax : 1 ≤ max 1 x := le_max_left 1 x
  have hhalf : noise x ≤ 1 / 2 := by
    refine not_lt.1 fun hlarge => ?_
    have hfull : leniency x = 1 / 2 := by
      refine min_eq_left ?_
      unfold noise at hlarge
      linarith
    linarith
  refine le_min hhalf ?_
  unfold noise
  linarith

/-- If leniency and noise are less than the least fraction that a share can have, the share is
rounded up as it is meant to be. -/
theorem wholeUnits_eq_ceil {N D : ℤ} (hD : 0 < D) (hshare : x = N / D) (hx : 0 ≤ x)
    (hfine : leniency x + noise x < 1 / D) (hy : OnGrid y) (h : Rounds 4 x y) :
    wholeUnits y = x.ceil := by
  rcases (Rat.le_ceil (x := x)).eq_or_lt with hwhole | hlt
  · -- the share is a whole number
    have hpos : (0 : ℚ) < D := by exact_mod_cast hD
    have hunit : (1 : ℚ) / D ≤ 1 := (div_le_one hpos).2 (by exact_mod_cast hD)
    refine wholeUnits_eq_of_le_leniency hx hy h hwhole.ge ?_
    rw [← hwhole, sub_self, zero_add]
    exact noise_le_leniency (hfine.trans_le hunit)
  · have hbelow : ((x.ceil - 1 : ℤ) : ℚ) < x := Rat.lt_ceil_iff.1 (by omega)
    have hdown : (1 : ℚ) / D ≤ x - (x.ceil - 1 : ℤ) := by
      rw [hshare] at hbelow ⊢
      exact one_div_le_sub_of_lt hD hbelow
    have hup : (1 : ℚ) / D ≤ x.ceil - x := by
      rw [hshare] at hlt ⊢
      exact one_div_le_sub_of_gt hD hlt
    have hlow : x.ceil - 1 < wholeUnits y := by
      have := sub_leniency_le_wholeUnits hx hy h
      exact_mod_cast (by linarith : ((x.ceil - 1 : ℤ) : ℚ) < wholeUnits y)
    have hceil : y.ceil ≤ x.ceil := by
      have hnoise := (abs_le.1 (abs_sub_le_noise h hx)).2
      have := leniency_nonneg x
      have := noise_nonneg x
      exact Rat.ceil_le_iff.2 (by linarith)
    have := wholeUnits_le_ceil y
    omega

/-! ### Decimal percentages -/

/-- No decimal number of so few places is among the smallest numbers. -/
theorem rounds_decimal (k : ℕ) (hd : d ≤ 6) :
    Rounds 1 ((k : ℚ) / 10 ^ d) (Binary64.nearest (k / 10 ^ d)) := by
  rcases Nat.eq_zero_or_pos k with rfl | hk
  · rw [Nat.cast_zero, zero_div, nearest_zero]
    exact (Rounds.refl 0).mono le_rfl (by decide)
  · refine (Rounds.refl _).succ (smallest_le.trans ?_)
    have hone : (1 : ℚ) ≤ k := by exact_mod_cast hk
    have hpow : (10 : ℚ) ^ d ≤ 10 ^ 10 := pow_le_pow_right₀ (by norm_num) (by omega)
    exact div_le_div₀ (zero_le_one.trans hone) hone (by positivity) hpow

theorem isNonneg_of_decimal (hfinite : s.percentage.isFinite)
    (hp : s.percentage.value = Binary64.nearest (k / 10 ^ d)) : s.IsNonneg :=
  ⟨hfinite, by rw [hp]; exact nearest_nonneg (by positivity)⟩

/-- The share that is meant, with the percentage as it is written, and the raw fee. -/
theorem rounds_raw_of_decimal (hs : s.IsNonneg) (hd : d ≤ 6)
    (hp : s.percentage.value = Binary64.nearest (k / 10 ^ d)) :
    Rounds 4 ((a.units.toNat * k : ℕ) / 10 ^ (d + 2) : ℚ) (s.raw a) := by
  have hshare : Rounds 1 ((a.units.toNat * k : ℕ) / 10 ^ (d + 2) : ℚ) (s.share a) := by
    have h := (rounds_decimal k hd).mul_right (c := a.units.toNat / 100) (by positivity)
    rw [← hp] at h
    convert h using 1
    · push_cast
      ring
    · unfold share
      ring
  have hraw : Rounds 3 (s.share a) (s.raw a) := by
    refine rounds_raw hs ?_
    rcases Nat.eq_zero_or_pos (a.units.toNat * k) with hzero | hpos
    · left
      rw [hzero, Nat.cast_zero, zero_div] at hshare
      exact le_antisymm (by simpa using hshare.high) (share_nonneg hs a)
    · right
      have hone : (1 : ℚ) ≤ (a.units.toNat * k : ℕ) := by exact_mod_cast hpos
      have hpow : (10 : ℚ) ^ (d + 2) ≤ 10 ^ 8 := pow_le_pow_right₀ (by norm_num) (by omega)
      have hleast : (1 : ℚ) / 10 ^ 8 ≤ (a.units.toNat * k : ℕ) / 10 ^ (d + 2) :=
        div_le_div₀ (zero_le_one.trans hone) hone (by positivity) hpow
      have := hshare.mul_le (c := 1 / 2) (by positivity) (by norm_num)
      linarith
  exact hshare.trans hraw

/-- Up to the bound no hundredth of a unit, nor any smaller fraction that the places of the
percentage can give, is lost in leniency and noise. -/
theorem leniency_add_noise_lt {n : ℕ} (hd : d ≤ 6) (hn : n ≤ 999999000) :
    leniency (n / 10 ^ (d + 2)) + noise (n / 10 ^ (d + 2)) < 1 / 10 ^ (d + 2) := by
  have hpos : (0 : ℚ) < 10 ^ (d + 2) := by positivity
  have hpow : (10 : ℚ) ^ (d + 2) ≤ 10 ^ 8 := pow_le_pow_right₀ (by norm_num) (by omega)
  have hbound : (n : ℚ) ≤ 999999000 := by exact_mod_cast hn
  have hunit : (0 : ℚ) < 1 / 10 ^ (d + 2) := by positivity
  have hmax : max 1 ((n : ℚ) / 10 ^ (d + 2)) ≤ 999999000 * (1 / 10 ^ (d + 2)) := by
    rw [mul_one_div]
    exact max_le ((one_le_div hpos).2 (by linarith)) (div_le_div_of_nonneg_right hbound hpos.le)
  have hleniency : leniency (n / 10 ^ (d + 2)) ≤ max 1 ((n : ℚ) / 10 ^ (d + 2)) / 10 ^ 9 :=
    min_le_right _ _
  unfold noise
  linarith

/-- **Decimal percentages yield the fee worked out by hand**: with the percentage `k / 10 ^ d` read
as the nearest binary number, the fee is the ceiling of the exact share, or the minimum. -/
theorem fee_of_decimal (hfinite : s.percentage.isFinite) (hd : d ≤ 6)
    (hp : s.percentage.value = Binary64.nearest (k / 10 ^ d))
    (h : a.units.toNat * k ≤ 999999000) :
    ((s.fee a).units.toNat : ℤ) =
      max ((a.units.toNat * k : ℕ) / 10 ^ (d + 2) : ℚ).ceil s.minimum.toNat := by
  have hs := isNonneg_of_decimal hfinite hp
  have hrounds := rounds_raw_of_decimal (a := a) hs hd hp
  have hnonneg : (0 : ℚ) ≤ (a.units.toNat * k : ℕ) / 10 ^ (d + 2) := by positivity
  have hraw : s.raw a < 2 ^ 64 := by
    have hbound : ((a.units.toNat * k : ℕ) : ℚ) ≤ 999999000 := by exact_mod_cast h
    have hle : ((a.units.toNat * k : ℕ) / 10 ^ (d + 2) : ℚ) ≤ (a.units.toNat * k : ℕ) :=
      div_le_self (Nat.cast_nonneg _) (one_le_pow₀ (by norm_num))
    exact lt_of_rounds hrounds hnonneg (by linarith)
  have hwhole : wholeUnits (s.raw a) = ((a.units.toNat * k : ℕ) / 10 ^ (d + 2) : ℚ).ceil := by
    refine wholeUnits_eq_ceil (N := (a.units.toNat * k : ℕ)) (D := 10 ^ (d + 2)) (by positivity)
      (by push_cast; rfl) hnonneg ?_ (onGrid_raw s a) hrounds
    have := leniency_add_noise_lt hd h
    push_cast at this ⊢
    exact this
  rw [fee_toNat hs hraw, hwhole]

/-- 2.200489 percent, which is no binary number, of 409 is 9.00000001. That is above nine by hardly
more than the leniency, and goes up to ten. -/
theorem fee_of_decimal_above_nine :
    let s : FeeSchedule := ⟨⟨0x40019a99fa11a976⟩, 5⟩
    s.percentage.isFinite ∧ s.percentage.value = Binary64.nearest ((2200489 : ℕ) / 10 ^ 6) ∧
      (409 : UInt64).toNat * 2200489 ≤ 999999000 ∧ ((s.fee ⟨409⟩).units.toNat : ℤ) = 10 := by
  intro s
  have hs : s.percentage.isFinite := by decide +kernel
  have hp : s.percentage.value = Binary64.nearest ((2200489 : ℕ) / 10 ^ 6) := by decide +kernel
  have hbound : (409 : UInt64).toNat * 2200489 ≤ 999999000 := by decide
  refine ⟨hs, hp, hbound, ?_⟩
  rw [fee_of_decimal (a := ⟨409⟩) hs (by decide) hp hbound]
  decide +kernel

end WalletLedger.FeeSchedule
