import Mathlib.Algebra.Order.Ring.Rat
import Mathlib.Tactic.Linarith
import Mathlib.Tactic.NormNum
import Mathlib.Tactic.Positivity
import WalletLedger.Proofs.FeeBounds

/-!
# Shares that are not rounded up

A share is rounded up to whole units unless it lies so little above a whole number that it counts as
that number. What counts as little is `leniency`: a relative distance, which grows with the share
until it is half a unit. Between the share and the raw fee there are a few roundings, which `noise`
bounds. So a share goes up if it lies further above a whole number than leniency and noise together
(`sub_leniency_le_wholeUnits`), and down if it lies nearer than leniency without noise
(`wholeUnits_eq_of_le_leniency`). From ten million units on the leniency takes in hundredths of a
unit, and a whole percentage of an amount may be charged one unit less than its ceiling.
-/

namespace WalletLedger.FeeSchedule

open Binary64 (OnGrid Rounds)

variable {s : FeeSchedule} {a : Amount} {x y : ℚ}

/-- How far above a whole number a share of this size is still charged as that number. -/
def leniency (x : ℚ) : ℚ := min (1 / 2) (max 1 x / 10 ^ 9)

/-- More than what the roundings make of a share of this size. -/
def noise (x : ℚ) : ℚ := max 1 x / 2 ^ 50

theorem noise_nonneg (x : ℚ) : 0 ≤ noise x := by
  unfold noise
  positivity

theorem leniency_nonneg (x : ℚ) : 0 ≤ leniency x := le_min (by norm_num) (by positivity)

theorem abs_sub_le_noise (h : Rounds 4 x y) (hx : 0 ≤ x) : |y - x| ≤ 5 / 8 * noise x := by
  have hdistance := h.abs_sub_le (c := 5 / 2 ^ 53) hx (by norm_num) (by norm_num)
  have hmax : x ≤ max 1 x := le_max_right 1 x
  unfold noise
  linarith

/-! ### Up -/

/-- Leniency and noise are all that a share can lose. -/
theorem sub_leniency_le_wholeUnits (hx : 0 ≤ x) (hy : OnGrid y) (h : Rounds 4 x y) :
    x - leniency x - noise x ≤ wholeUnits y := by
  have hnoise := (abs_le.1 (abs_sub_le_noise h hx)).1
  have hmax : 1 ≤ max 1 x := le_max_left 1 x
  suffices x - noise x - wholeUnits y ≤ leniency x by linarith
  unfold leniency
  unfold noise at hnoise ⊢
  by_cases hwhole : CountsAsWhole y
  · rw [wholeUnits_of_countsAsWhole hy hwhole]
    have hhalf := (abs_le.1 (Rounding.abs_nearest_sub_le .awayFromZero y)).1
    have hdistance := (abs_le.1 hwhole).2
    have hslack := slack_le (Rounding.nearest .awayFromZero y)
    by_cases hbelow : (Rounding.nearest .awayFromZero y : ℚ) ≤ x
    · have hle : max (1 : ℚ) (Rounding.nearest .awayFromZero y) ≤ max 1 x :=
        max_le_max le_rfl hbelow
      exact le_min (by linarith) (by linarith)
    · -- a whole number above the share takes nothing away
      exact le_min (by linarith) (by linarith)
  · rw [wholeUnits_of_not_countsAsWhole hy hwhole]
    have hceil := Rat.le_ceil (x := y)
    exact le_min (by linarith) (by linarith)

/-! ### Down -/

/-- A share that lies nearer to a whole number than the leniency goes down to it. -/
theorem wholeUnits_eq_of_le_leniency {n : ℤ} (hx : 0 ≤ x) (hy : OnGrid y) (h : Rounds 4 x y)
    (hn : (n : ℚ) ≤ x) (hclose : x - n + noise x ≤ leniency x) : wholeUnits y = n := by
  have hnoise := abs_sub_le_noise h hx
  have htriangle := abs_sub_le y x n
  rw [abs_of_nonneg (sub_nonneg.2 hn)] at htriangle
  have hhalf := hclose.trans (min_le_left _ _)
  have hrelative := hclose.trans (min_le_right _ _)
  have hmax : 1 ≤ max 1 x := le_max_left 1 x
  -- the whole number is about as large as the share, and so is what counts as little
  have hsize : max 1 x ≤ max (1 : ℚ) n + (x - n) :=
    max_le (by linarith [le_max_left (1 : ℚ) n]) (by linarith [le_max_right (1 : ℚ) n])
  have hslack := le_slack n
  unfold noise at hnoise hhalf hrelative
  exact wholeUnits_of_abs_sub_le hy (by linarith) (by linarith)

/-! ### Whole percentages -/

section WholePercentages

variable {p : ℕ}

theorem share_of_percentage (hp : s.percentage.value = p) :
    s.share a = (a.units.toNat * p : ℕ) / 100 := by
  unfold share
  rw [hp, Nat.cast_mul]

theorem isNonneg_of_percentage (hfinite : s.percentage.isFinite) (hp : s.percentage.value = p) :
    s.IsNonneg := ⟨hfinite, by rw [hp]; exact Nat.cast_nonneg p⟩

theorem rounds_raw_of_percentage (hs : s.IsNonneg) (hp : s.percentage.value = p) :
    Rounds 3 (s.share a) (s.raw a) := by
  refine rounds_raw hs ?_
  rw [share_of_percentage hp]
  rcases Nat.eq_zero_or_pos (a.units.toNat * p) with hzero | hpos
  · left
    rw [hzero, Nat.cast_zero, zero_div]
  · right
    have hone : (1 : ℚ) ≤ (a.units.toNat * p : ℕ) := by exact_mod_cast hpos
    linarith

theorem share_le (h : s.percentage.value ≤ 100) : s.share a ≤ a.units.toNat := by
  have hunits : (0 : ℚ) ≤ a.units.toNat := Nat.cast_nonneg _
  have := mul_le_mul_of_nonneg_left h hunits
  unfold share
  linarith

/-- What a whole percentage of an amount comes to. If the share lies further above a whole number
than leniency and noise the fee reaches its ceiling; if it lies nearer the whole number is all that
is charged. In no case does the fee miss the share by more. -/
theorem fee_at_whole_percentage (hfinite : s.percentage.isFinite) (hp : s.percentage.value = p)
    (hmost : p ≤ 100) (ha : a.units ≤ Amount.limit) :
    (leniency (s.share a) + noise (s.share a) < s.share a - ((s.share a).ceil - 1) →
      (s.share a).ceil ≤ ((s.fee a).units.toNat : ℤ)) ∧
    (s.share a - (s.share a).floor + noise (s.share a) ≤ leniency (s.share a) →
      ((s.fee a).units.toNat : ℤ) = max (s.share a).floor s.minimum.toNat) ∧
    s.share a - leniency (s.share a) - noise (s.share a) ≤ (s.fee a).units.toNat := by
  have hs := isNonneg_of_percentage hfinite hp
  have hshare := share_nonneg hs a
  have hrounds := (rounds_raw_of_percentage (a := a) hs hp).mono hshare (by decide : 3 ≤ 4)
  have hraw : s.raw a < 2 ^ 64 := by
    have hle := share_le (a := a) (by rw [hp]; exact_mod_cast hmost)
    have hlimit : (a.units.toNat : ℚ) ≤ 9223372036854775807 := by
      exact_mod_cast UInt64.le_iff_toNat_le.1 ha
    exact lt_of_rounds hrounds hshare (by linarith)
  have hfee := fee_toNat hs hraw
  have hlow := sub_leniency_le_wholeUnits hshare (onGrid_raw s a) hrounds
  have hwhole : (wholeUnits (s.raw a) : ℚ) ≤ ((s.fee a).units.toNat : ℤ) := by
    exact_mod_cast hfee.symm ▸ le_max_left _ _
  rw [Int.cast_natCast] at hwhole
  refine ⟨fun hfar => ?_, fun hclose => ?_, hlow.trans hwhole⟩
  · have hlt : (((s.share a).ceil - 1 : ℤ) : ℚ) < ((s.fee a).units.toNat : ℤ) := by
      push_cast
      linarith
    have : (s.share a).ceil - 1 < ((s.fee a).units.toNat : ℤ) := by exact_mod_cast hlt
    omega
  · rw [hfee, wholeUnits_eq_of_le_leniency hshare (onGrid_raw s a) hrounds (Rat.floor_le _) hclose]

/-- 3 percent of a thousand and one goes up to 31. 1 percent of two thousand million and one lies a
hundredth above twenty million and goes down. -/
theorem fee_at_whole_percentage_both_ways :
    let s : FeeSchedule := ⟨⟨0x4008000000000000⟩, 0⟩
    let t : FeeSchedule := ⟨⟨0x3ff0000000000000⟩, 7⟩
    s.percentage.isFinite ∧ s.percentage.value = (3 : ℕ) ∧ (s.share ⟨1001⟩).ceil = 31 ∧
      31 ≤ ((s.fee ⟨1001⟩).units.toNat : ℤ) ∧
      t.percentage.isFinite ∧ t.percentage.value = (1 : ℕ) ∧
      (t.share ⟨2000000001⟩).floor = 20000000 ∧
      ((t.fee ⟨2000000001⟩).units.toNat : ℤ) = max 20000000 7 := by
  intro s t
  have hs : s.percentage.isFinite := by decide +kernel
  have ht : t.percentage.isFinite := by decide +kernel
  have hs3 : s.percentage.value = (3 : ℕ) := by decide +kernel
  have ht1 : t.percentage.value = (1 : ℕ) := by decide +kernel
  have hceil : (s.share ⟨1001⟩).ceil = 31 := by decide +kernel
  have hfloor : (t.share ⟨2000000001⟩).floor = 20000000 := by decide +kernel
  obtain ⟨hup, -, -⟩ := fee_at_whole_percentage (a := ⟨1001⟩) hs hs3 (by decide) (by decide)
  obtain ⟨-, hdown, -⟩ := fee_at_whole_percentage (a := ⟨2000000001⟩) ht ht1 (by decide) (by decide)
  refine ⟨hs, hs3, hceil, ?_, ht, ht1, hfloor, ?_⟩
  · rw [← hceil]
    exact hup (by decide +kernel)
  · rw [hdown (by decide +kernel), hfloor]
    rfl

/-- 1 percent of a thousand million and one is a hundredth more than ten million, and no more than
ten million is charged. -/
theorem fee_below_ceil_at_ten_million :
    let s : FeeSchedule := ⟨⟨0x3ff0000000000000⟩, 0⟩
    s.percentage.isFinite ∧ s.percentage.value = (1 : ℕ) ∧ (1000000001 : UInt64) ≤ Amount.limit ∧
      s.share ⟨1000000001⟩ = 1000000001 * 1 / 100 ∧
      ¬(s.share ⟨1000000001⟩).ceil ≤ ((s.fee ⟨1000000001⟩).units.toNat : ℤ) :=
  ⟨by decide +kernel, by decide +kernel, by decide, by decide +kernel, by decide +kernel⟩

end WholePercentages

end WalletLedger.FeeSchedule
