import Mathlib.Algebra.Order.Field.Power
import Mathlib.Algebra.Order.Ring.Rat
import Mathlib.Data.Rat.Lemmas
import Mathlib.Tactic.FieldSimp
import Mathlib.Tactic.Linarith
import Mathlib.Tactic.Positivity
import Mathlib.Tactic.Ring
import WalletLedger.Binary64
import WalletLedger.Proofs.WholeNumbers

/-!
# The grid of binary numbers

Around a number `x` the grid is made of the multiples of `2 ^ quantumAt x`, and `nearest x` is the
nearest multiple. Three things follow, and hold across the changes of spacing. Rounding keeps the
order (`nearest_mono`). What it gives is on the grid (`onGrid_nearest`), and what is on the grid
stays (`nearest_of_onGrid`); so does what is left there once the nearest whole number is taken off
(`OnGrid.sub_nearest`), while from `2 ^ 53` on there are whole numbers only
(`OnGrid.exists_intCast`). And the smallest numbers apart, a rounding is off by `2 ^ -53` of the
number at most, of which `Rounds` keeps count.
-/

namespace WalletLedger.Binary64

variable {x y : ℚ}

/-! ### Binary logarithms -/

theorem two_zpow_pos (e : ℤ) : (0 : ℚ) < 2 ^ e := zpow_pos two_pos e

theorem two_zpow_add (e f : ℤ) : (2 : ℚ) ^ (e + f) = 2 ^ e * 2 ^ f := zpow_add₀ two_ne_zero e f

theorem two_zpow_le_iff {e f : ℤ} : (2 : ℚ) ^ e ≤ 2 ^ f ↔ e ≤ f :=
  zpow_le_zpow_iff_right₀ one_lt_two

theorem two_zpow_lt_iff {e f : ℤ} : (2 : ℚ) ^ e < 2 ^ f ↔ e < f :=
  zpow_lt_zpow_iff_right₀ one_lt_two

theorem two_zpow_natLog2_le {n : ℕ} (h : n ≠ 0) : (2 : ℚ) ^ (n.log2 : ℤ) ≤ n := by
  rw [zpow_natCast]
  exact_mod_cast Nat.log2_self_le h

/-- A number has one bit more than its logarithm says. -/
theorem lt_two_zpow_natLog2 (n : ℕ) : (n : ℚ) < 2 ^ ((n.log2 : ℤ) + 1) := by
  rw [← Nat.cast_one, ← Nat.cast_add, zpow_natCast]
  exact_mod_cast Nat.lt_log2_self

/-- A quotient lies between those of the powers of two around its numerator and denominator. -/
theorem two_zpow_sub_le {n d : ℕ} (hn : n ≠ 0) (hd : d ≠ 0) :
    (2 : ℚ) ^ ((n.log2 : ℤ) - d.log2 - 1) ≤ n / d := by
  refine (le_div_iff₀ (by exact_mod_cast Nat.pos_of_ne_zero hd)).2 ?_
  calc (2 : ℚ) ^ ((n.log2 : ℤ) - d.log2 - 1) * d
      ≤ 2 ^ ((n.log2 : ℤ) - d.log2 - 1) * 2 ^ ((d.log2 : ℤ) + 1) :=
        mul_le_mul_of_nonneg_left (lt_two_zpow_natLog2 d).le (two_zpow_pos _).le
    _ = 2 ^ (n.log2 : ℤ) := by
        rw [← two_zpow_add]
        congr 1
        omega
    _ ≤ n := two_zpow_natLog2_le hn

theorem lt_two_zpow_sub (n : ℕ) {d : ℕ} (hd : d ≠ 0) :
    (n : ℚ) / d < 2 ^ ((n.log2 : ℤ) - d.log2 + 1) := by
  refine (div_lt_iff₀ (by exact_mod_cast Nat.pos_of_ne_zero hd)).2 ?_
  calc (n : ℚ) < 2 ^ ((n.log2 : ℤ) + 1) := lt_two_zpow_natLog2 n
    _ = 2 ^ ((n.log2 : ℤ) - d.log2 + 1) * 2 ^ (d.log2 : ℤ) := by
        rw [← two_zpow_add]
        congr 1
        omega
    _ ≤ 2 ^ ((n.log2 : ℤ) - d.log2 + 1) * d :=
        mul_le_mul_of_nonneg_left (two_zpow_natLog2_le hd) (two_zpow_pos _).le

/-- The logarithm of a positive number names the power of two at or below it, although it starts
from a guess. -/
theorem log2_spec (h : 0 < x) : (2 : ℚ) ^ log2 x ≤ x ∧ x < 2 ^ (log2 x + 1) := by
  have hnum : x.num.natAbs ≠ 0 := by simpa using h.ne'
  have hquotient : (x.num.natAbs : ℚ) / x.den = x := by
    rw [Nat.cast_natAbs, abs_of_pos (Rat.num_pos.2 h), Rat.num_div_den]
  have hlow := (two_zpow_sub_le hnum x.den_ne_zero).trans_eq hquotient
  have hhigh := hquotient.symm.trans_lt (lt_two_zpow_sub x.num.natAbs x.den_ne_zero)
  unfold log2
  dsimp only
  split
  · rename_i hlt
    refine ⟨hlow, ?_⟩
    rwa [sub_add_cancel]
  · rename_i hge
    exact ⟨not_lt.1 hge, hhigh⟩

/-- The powers of two at or below a number are those up to its logarithm. -/
theorem le_log2_iff (h : 0 < x) {e : ℤ} : e ≤ log2 x ↔ (2 : ℚ) ^ e ≤ x := by
  obtain ⟨hlow, hhigh⟩ := log2_spec h
  constructor
  · intro he
    exact (two_zpow_le_iff.2 he).trans hlow
  · intro he
    have := two_zpow_lt_iff.1 (he.trans_lt hhigh)
    omega

theorem log2_mono (hx : 0 < x) (h : x ≤ y) : log2 x ≤ log2 y :=
  (le_log2_iff (hx.trans_le h)).2 ((log2_spec hx).1.trans h)

/-! ### The spacing of the grid -/

theorem rat_abs_eq (x : ℚ) : x.abs = |x| := by
  rcases le_total 0 x with h | h
  · rw [Rat.abs_of_nonneg h, abs_of_nonneg h]
  · rw [Rat.abs_of_nonpos h, abs_of_nonpos h]

theorem quantumAt_eq (x : ℚ) : quantumAt x = max leastQuantum (log2 |x| - 52) := by
  rw [quantumAt, rat_abs_eq]

theorem quantumAt_neg (x : ℚ) : quantumAt (-x) = quantumAt x := by
  rw [quantumAt_eq, quantumAt_eq, abs_neg]

theorem quantumAt_abs (x : ℚ) : quantumAt |x| = quantumAt x := by
  rw [quantumAt_eq, quantumAt_eq, abs_abs]

theorem leastQuantum_le_quantumAt (x : ℚ) : leastQuantum ≤ quantumAt x := le_max_left _ _

/-- The grid gets coarser away from zero. -/
theorem quantumAt_mono (hx : 0 < x) (h : x ≤ y) : quantumAt x ≤ quantumAt y := by
  have hlog := log2_mono hx h
  rw [quantumAt_eq, quantumAt_eq, abs_of_pos hx, abs_of_pos (hx.trans_le h)]
  omega

/-- In units of the spacing every number is smaller than the significands are. -/
theorem lt_two_zpow_quantumAt (hx : 0 < x) : x < 2 ^ (quantumAt x + 53) := by
  refine (log2_spec hx).2.trans_le (two_zpow_le_iff.2 ?_)
  rw [quantumAt_eq, abs_of_pos hx]
  omega

/-- Above the smallest numbers a number has fifty-three bits before the spacing. -/
theorem two_zpow_quantumAt_le (hx : 0 < x) (h : leastQuantum < quantumAt x) :
    (2 : ℚ) ^ (quantumAt x + 52) ≤ x := by
  refine le_trans (two_zpow_le_iff.2 ?_) (log2_spec hx).1
  rw [quantumAt_eq, abs_of_pos hx] at h ⊢
  omega

/-! ### Rounding to the grid -/

/-- A number is rounded in units of the spacing around it, zero included. -/
theorem nearest_eq (x : ℚ) :
    nearest x = (Rounding.nearest .toEven (x / 2 ^ quantumAt x) : ℚ) * 2 ^ quantumAt x := by
  unfold nearest
  split
  · rename_i h
    rw [h, zero_div, ← Rat.intCast_zero, Rounding.nearest_intCast, Rat.intCast_zero, zero_mul]
  · rfl

@[simp] theorem nearest_zero : nearest 0 = 0 := if_pos rfl

theorem nearest_neg (x : ℚ) : nearest (-x) = -nearest x := by
  rw [nearest_eq, nearest_eq, quantumAt_neg, neg_div, Rounding.nearest_neg]
  push_cast
  ring

/-- The distance to the grid is at most half its spacing. -/
theorem abs_nearest_sub_le (x : ℚ) : |nearest x - x| ≤ 2 ^ quantumAt x / 2 := by
  have hpos := two_zpow_pos (quantumAt x)
  have hwhole := Rounding.abs_nearest_sub_le .toEven (x / 2 ^ quantumAt x)
  have hscaled : nearest x - x =
      ((Rounding.nearest .toEven (x / 2 ^ quantumAt x) : ℚ) - x / 2 ^ quantumAt x) *
        2 ^ quantumAt x := by
    rw [nearest_eq, sub_mul, div_mul_cancel₀ x hpos.ne']
  rw [hscaled, abs_mul, abs_of_pos hpos]
  calc _ ≤ 1 / 2 * 2 ^ quantumAt x := mul_le_mul_of_nonneg_right hwhole hpos.le
    _ = 2 ^ quantumAt x / 2 := by ring

/-- What lies above a multiple of the spacing is rounded to it or above it. -/
theorem mul_le_nearest {n : ℤ} (h : n * 2 ^ quantumAt x ≤ x) : n * 2 ^ quantumAt x ≤ nearest x := by
  have hpos := two_zpow_pos (quantumAt x)
  have hwhole : n ≤ Rounding.nearest .toEven (x / 2 ^ quantumAt x) :=
    Rounding.le_nearest ((le_div_iff₀ hpos).2 h)
  rw [nearest_eq]
  exact mul_le_mul_of_nonneg_right (by exact_mod_cast hwhole) hpos.le

/-- What lies below a multiple of the spacing is rounded to it or below it. -/
theorem nearest_le_mul {n : ℤ} (h : x ≤ n * 2 ^ quantumAt x) : nearest x ≤ n * 2 ^ quantumAt x := by
  have hpos := two_zpow_pos (quantumAt x)
  have hwhole : Rounding.nearest .toEven (x / 2 ^ quantumAt x) ≤ n :=
    Rounding.nearest_le ((div_le_iff₀ hpos).2 h)
  rw [nearest_eq]
  exact mul_le_mul_of_nonneg_right (by exact_mod_cast hwhole) hpos.le

/-- A whole multiple of the spacing around it stays as it is. -/
theorem nearest_of_mul {n : ℤ} (h : x = n * 2 ^ quantumAt x) : nearest x = x := by
  have hle := nearest_le_mul h.le
  have hge := mul_le_nearest h.ge
  rw [← h] at hle hge
  exact le_antisymm hle hge

theorem nearest_nonneg (h : 0 ≤ x) : 0 ≤ nearest x := by
  have := mul_le_nearest (x := x) (n := 0) (by simpa using h)
  simpa using this

/-! ### Order -/

/-- A power of two with a nonnegative exponent is a whole number. -/
theorem exists_intCast_eq_two_zpow {e : ℤ} (h : 0 ≤ e) : ∃ n : ℤ, (n : ℚ) = 2 ^ e := by
  refine ⟨2 ^ e.toNat, ?_⟩
  obtain ⟨k, rfl⟩ := Int.eq_ofNat_of_zero_le h
  simp

/-- Rounding keeps the order of numbers from zero on, also where the spacing changes between them.
-/
theorem nearest_mono_of_nonneg (hx : 0 ≤ x) (h : x ≤ y) : nearest x ≤ nearest y := by
  rcases hx.eq_or_lt with rfl | hpos
  · rw [nearest_zero]
    exact nearest_nonneg h
  rcases (quantumAt_mono hpos h).eq_or_lt with heq | hlt
  · -- on one grid whole numbers are compared
    rw [nearest_eq, nearest_eq, heq]
    have hq := two_zpow_pos (quantumAt y)
    have hwhole : Rounding.nearest .toEven (x / 2 ^ quantumAt y) ≤
        Rounding.nearest .toEven (y / 2 ^ quantumAt y) :=
      Rounding.nearest_mono _ (div_le_div_of_nonneg_right h hq.le)
    exact mul_le_mul_of_nonneg_right (by exact_mod_cast hwhole) hq.le
  · -- where the grid changes a power of two lies between the two numbers, and is on both grids
    have hy := two_zpow_quantumAt_le (hpos.trans_le h)
      ((leastQuantum_le_quantumAt x).trans_lt hlt)
    have hx : x ≤ 2 ^ (quantumAt y + 52) :=
      (lt_two_zpow_quantumAt hpos).le.trans (two_zpow_le_iff.2 (by omega))
    obtain ⟨n, hn⟩ := exists_intCast_eq_two_zpow (e := quantumAt y + 52 - quantumAt x) (by omega)
    obtain ⟨k, hk⟩ := exists_intCast_eq_two_zpow (e := 52) (by omega)
    have hnx : (n : ℚ) * 2 ^ quantumAt x = 2 ^ (quantumAt y + 52) := by
      rw [hn, ← two_zpow_add, sub_add_cancel]
    have hky : (k : ℚ) * 2 ^ quantumAt y = 2 ^ (quantumAt y + 52) := by
      rw [hk, ← two_zpow_add, add_comm]
    calc nearest x ≤ n * 2 ^ quantumAt x := nearest_le_mul (hx.trans_eq hnx.symm)
      _ = k * 2 ^ quantumAt y := by rw [hnx, hky]
      _ ≤ nearest y := mul_le_nearest (hky.trans_le hy)

theorem nearest_mono (h : x ≤ y) : nearest x ≤ nearest y := by
  rcases le_total 0 x with hx | hx
  · exact nearest_mono_of_nonneg hx h
  · rcases le_total 0 y with hy | hy
    · have := nearest_nonneg (neg_nonneg.2 hx)
      rw [nearest_neg] at this
      have := nearest_nonneg hy
      linarith
    · have := nearest_mono_of_nonneg (neg_nonneg.2 hy) (neg_le_neg h)
      rw [nearest_neg, nearest_neg] at this
      linarith

/-! ### Points of the grid -/

/-- A number of the format without its upper end: a significand of at most fifty-three bits (or the
power of two above them) and an exponent that is not below that of the smallest numbers. -/
def OnGrid (x : ℚ) : Prop :=
  ∃ m q : ℤ, |m| ≤ 2 ^ 53 ∧ leastQuantum ≤ q ∧ x = m * 2 ^ q

/-- Whole numbers of up to 53 bits lie on the grid. -/
theorem onGrid_intCast {n : ℤ} (h : |n| ≤ 2 ^ 53) : OnGrid n :=
  ⟨n, 0, h, by decide, by simp⟩

theorem onGrid_nearest (x : ℚ) : OnGrid (nearest x) := by
  refine ⟨Rounding.nearest .toEven (x / 2 ^ quantumAt x), quantumAt x, ?_,
    leastQuantum_le_quantumAt x, nearest_eq x⟩
  by_cases hx : x = 0
  · rw [hx, zero_div, ← Rat.intCast_zero, Rounding.nearest_intCast]
    decide
  · have hpos := two_zpow_pos (quantumAt x)
    have hlt := lt_two_zpow_quantumAt (abs_pos.2 hx)
    rw [quantumAt_abs, add_comm, two_zpow_add] at hlt
    have hquotient : |x / 2 ^ quantumAt x| < 2 ^ (53 : ℤ) := by
      rwa [abs_div, abs_of_pos hpos, div_lt_iff₀ hpos]
    rw [abs_lt] at hquotient
    obtain ⟨hlow, hhigh⟩ := hquotient
    refine abs_le.2 ⟨Rounding.le_nearest ?_, Rounding.nearest_le ?_⟩
    · push_cast
      exact hlow.le
    · push_cast
      exact hhigh.le

theorem abs_le_of_significand {m q : ℤ} (h : |m| ≤ 2 ^ 53) :
    |(m : ℚ) * 2 ^ q| ≤ 2 ^ (q + 53) := by
  have hm : |(m : ℚ)| ≤ 2 ^ (53 : ℤ) := by exact_mod_cast h
  rw [abs_mul, abs_of_pos (two_zpow_pos q), add_comm, two_zpow_add]
  exact mul_le_mul_of_nonneg_right hm (two_zpow_pos q).le

/-- A point of the grid is rounded to itself, and rounding twice changes nothing more. -/
theorem nearest_of_onGrid (h : OnGrid x) : nearest x = x := by
  obtain ⟨m, q, hm, hq, hx⟩ := h
  have hhigh := abs_le_of_significand (q := q) hm
  rw [← hx] at hhigh
  by_cases hzero : x = 0
  · rw [hzero, nearest_zero]
  by_cases hle : quantumAt x ≤ q
  · obtain ⟨n, hn⟩ := exists_intCast_eq_two_zpow (e := q - quantumAt x) (by omega)
    refine nearest_of_mul (n := m * n) ?_
    rw [Int.cast_mul, hn, mul_assoc, ← two_zpow_add, sub_add_cancel]
    exact hx
  · -- the significand is the power of two above the others, which is on the next grid too
    have hlow := two_zpow_quantumAt_le (abs_pos.2 hzero) (by rw [quantumAt_abs]; omega)
    rw [quantumAt_abs] at hlow
    have hexponent : q + 53 = 52 + quantumAt x := by
      have := two_zpow_le_iff.1 (hlow.trans hhigh)
      omega
    obtain ⟨n, hn⟩ := exists_intCast_eq_two_zpow (e := 52) (by omega)
    rw [hexponent] at hhigh
    rw [add_comm] at hlow
    have habs : |x| = n * 2 ^ quantumAt x := by
      rw [hn, ← two_zpow_add]
      exact le_antisymm hhigh hlow
    rcases abs_choice x with hsign | hsign
    · exact nearest_of_mul (n := n) (by rw [← habs, hsign])
    · exact nearest_of_mul (n := -n) (by rw [Int.cast_neg, neg_mul, ← habs, hsign, neg_neg])

/-- So far up there are only whole numbers. -/
theorem OnGrid.exists_intCast (h : OnGrid x) (hx : 2 ^ (53 : ℤ) ≤ |x|) : ∃ n : ℤ, x = n := by
  obtain ⟨m, q, hm, -, rfl⟩ := h
  have hq := two_zpow_le_iff.1 (hx.trans (abs_le_of_significand hm))
  obtain ⟨n, hn⟩ := exists_intCast_eq_two_zpow (e := q) (by omega)
  exact ⟨m * n, by rw [Int.cast_mul, hn]⟩

/-- What is left after the nearest whole number is taken off needs no rounding. -/
theorem OnGrid.sub_nearest (h : OnGrid x) (tie : Rounding.Tie) :
    OnGrid (x - Rounding.nearest tie x) := by
  by_cases hzero : Rounding.nearest tie x = 0
  · rwa [hzero, Rat.intCast_zero, sub_zero]
  obtain ⟨m, q, hm, hq, hx⟩ := h
  by_cases hwhole : 0 ≤ q
  · obtain ⟨n, hn⟩ := exists_intCast_eq_two_zpow hwhole
    have hint : x = (m * n : ℤ) := by rw [hx, Int.cast_mul, hn]
    rw [hint, Rounding.nearest_intCast, sub_self]
    exact onGrid_intCast (n := 0) (by decide)
  · have hdistance := Rounding.abs_nearest_sub_le tie x
    -- a number that is rounded to another whole number than zero has few bits after the point
    have hhalf : (2 : ℚ) ^ (-1 : ℤ) ≤ |x| := by
      rw [zpow_neg_one, ← one_div]
      exact Rounding.half_le_abs hzero
    have hexponent : -1 ≤ q + 53 := by
      rw [hx] at hhalf
      exact two_zpow_le_iff.1 (hhalf.trans (abs_le_of_significand hm))
    obtain ⟨n, hn⟩ := exists_intCast_eq_two_zpow (e := -q) (by omega)
    have hrest : x - Rounding.nearest tie x = (m - Rounding.nearest tie x * n : ℤ) * 2 ^ q := by
      push_cast
      rw [hn, sub_mul, mul_assoc, ← two_zpow_add, neg_add_cancel, zpow_zero, mul_one, ← hx]
    refine ⟨m - Rounding.nearest tie x * n, q, ?_, hq, hrest⟩
    rw [abs_sub_comm, hrest, abs_mul, abs_of_pos (two_zpow_pos q),
      ← le_div_iff₀ (two_zpow_pos q)] at hdistance
    have hlarge : (1 : ℚ) / 2 / 2 ^ q ≤ 2 ^ (53 : ℤ) := by
      rw [div_le_iff₀ (two_zpow_pos q), ← two_zpow_add, one_div, ← zpow_neg_one]
      exact two_zpow_le_iff.2 (by omega)
    exact_mod_cast hdistance.trans hlarge

/-- Below a power of two the distance to the grid is small, whatever the number is. -/
theorem abs_nearest_sub_le_of_lt {e : ℤ} (he : -1021 ≤ e) (h : |x| < 2 ^ e) :
    |nearest x - x| ≤ 2 ^ (e - 54) := by
  by_cases hzero : x = 0
  · rw [hzero, nearest_zero, sub_zero, abs_zero]
    exact (two_zpow_pos _).le
  have hlog : ¬e ≤ log2 |x| := by rwa [le_log2_iff (abs_pos.2 hzero), not_le]
  have hquantum : quantumAt x - 1 ≤ e - 54 := by
    have : leastQuantum = -1074 := rfl
    rw [quantumAt_eq]
    omega
  calc |nearest x - x| ≤ 2 ^ quantumAt x / 2 := abs_nearest_sub_le x
    _ = 2 ^ (quantumAt x - 1) := by rw [div_eq_mul_inv, ← zpow_neg_one, ← two_zpow_add]; rfl
    _ ≤ 2 ^ (e - 54) := two_zpow_le_iff.2 hquantum

/-! ### Relative distance -/

/-- The smallest numbers apart, the distance to the grid is small against the number itself. -/
theorem abs_nearest_sub_le_mul (h : 2 ^ (-1022 : ℤ) ≤ |x|) :
    |nearest x - x| ≤ |x| * 2 ^ (-53 : ℤ) := by
  have hpos : 0 < |x| := (two_zpow_pos _).trans_le h
  have hquantum : (2 : ℚ) ^ (quantumAt x + 52) ≤ |x| := by
    by_cases hleast : leastQuantum < quantumAt x
    · rw [← quantumAt_abs] at hleast ⊢
      exact two_zpow_quantumAt_le hpos hleast
    · refine le_trans (two_zpow_le_iff.2 ?_) h
      have : leastQuantum = -1074 := rfl
      omega
  calc |nearest x - x| ≤ 2 ^ quantumAt x / 2 := abs_nearest_sub_le x
    _ = 2 ^ (quantumAt x + 52) * 2 ^ (-53 : ℤ) := by
        rw [← two_zpow_add, div_eq_mul_inv, ← zpow_neg_one, ← two_zpow_add]
        congr 1
        omega
    _ ≤ |x| * 2 ^ (-53 : ℤ) := mul_le_mul_of_nonneg_right hquantum (two_zpow_pos _).le

/-- The size that `k` roundings may leave of `x`, each off by up to half of a last place. -/
structure Rounds (k : ℕ) (x y : ℚ) : Prop where
  low : x * (1 - 2 ^ (-53 : ℤ)) ^ k ≤ y
  high : y ≤ x * (1 + 2 ^ (-53 : ℤ)) ^ k

theorem Rounds.refl (x : ℚ) : Rounds 0 x x :=
  ⟨by rw [pow_zero, mul_one], by rw [pow_zero, mul_one]⟩

/-- Roundings one after the other add up. -/
theorem Rounds.trans {j k : ℕ} {z : ℚ} (h : Rounds j x y) (h' : Rounds k y z) :
    Rounds (j + k) x z := by
  constructor
  · rw [pow_add, ← mul_assoc]
    exact (mul_le_mul_of_nonneg_right h.low (by positivity)).trans h'.low
  · rw [pow_add, ← mul_assoc]
    exact h'.high.trans (mul_le_mul_of_nonneg_right h.high (by positivity))

theorem Rounds.mono {j k : ℕ} (h : Rounds j x y) (hx : 0 ≤ x) (hjk : j ≤ k) : Rounds k x y where
  low := (mul_le_mul_of_nonneg_left
    (pow_le_pow_of_le_one (by norm_num) (by norm_num) hjk) hx).trans h.low
  high := h.high.trans (mul_le_mul_of_nonneg_left
    (pow_le_pow_right₀ (by norm_num) hjk) hx)

theorem Rounds.mul_le {k : ℕ} {c : ℚ} (h : Rounds k x y) (hx : 0 ≤ x)
    (hc : c ≤ (1 - 2 ^ (-53 : ℤ)) ^ k) : x * c ≤ y :=
  (mul_le_mul_of_nonneg_left hc hx).trans h.low

theorem Rounds.le_mul {k : ℕ} {c : ℚ} (h : Rounds k x y) (hx : 0 ≤ x)
    (hc : (1 + 2 ^ (-53 : ℤ)) ^ k ≤ c) : y ≤ x * c :=
  h.high.trans (mul_le_mul_of_nonneg_left hc hx)

theorem Rounds.abs_sub_le {k : ℕ} {c : ℚ} (h : Rounds k x y) (hx : 0 ≤ x)
    (hlow : 1 - c ≤ (1 - 2 ^ (-53 : ℤ)) ^ k) (hhigh : (1 + 2 ^ (-53 : ℤ)) ^ k ≤ 1 + c) :
    |y - x| ≤ x * c := by
  have hlow := h.mul_le hx hlow
  have hhigh := h.le_mul hx hhigh
  rw [mul_sub, mul_one] at hlow
  rw [mul_add, mul_one] at hhigh
  exact abs_le.2 ⟨by linarith, by linarith⟩

/-- Multiplying by an exact number keeps the relative distance. -/
theorem Rounds.mul_right {k : ℕ} {c : ℚ} (h : Rounds k x y) (hc : 0 ≤ c) :
    Rounds k (x * c) (y * c) := by
  constructor
  · rw [mul_right_comm]
    exact mul_le_mul_of_nonneg_right h.low hc
  · rw [mul_right_comm]
    exact mul_le_mul_of_nonneg_right h.high hc

/-- One more rounding of a number that is not too small. -/
theorem Rounds.succ {k : ℕ} (h : Rounds k x y) (hy : 2 ^ (-1022 : ℤ) ≤ y) :
    Rounds (k + 1) x (nearest y) := by
  have hpos : 0 < y := (two_zpow_pos _).trans_le hy
  have hdistance := abs_nearest_sub_le_mul (hy.trans_eq (abs_of_pos hpos).symm)
  rw [abs_of_pos hpos, abs_le] at hdistance
  obtain ⟨hlow, hhigh⟩ := hdistance
  constructor
  · calc x * (1 - 2 ^ (-53 : ℤ)) ^ (k + 1) = x * (1 - 2 ^ (-53 : ℤ)) ^ k * (1 - 2 ^ (-53 : ℤ)) := by
          rw [pow_succ, mul_assoc]
      _ ≤ y * (1 - 2 ^ (-53 : ℤ)) := mul_le_mul_of_nonneg_right h.low (by norm_num)
      _ ≤ nearest y := by linarith
  · calc nearest y ≤ y * (1 + 2 ^ (-53 : ℤ)) := by linarith
      _ ≤ x * (1 + 2 ^ (-53 : ℤ)) ^ k * (1 + 2 ^ (-53 : ℤ)) :=
          mul_le_mul_of_nonneg_right h.high (by norm_num)
      _ = x * (1 + 2 ^ (-53 : ℤ)) ^ (k + 1) := by rw [pow_succ, mul_assoc]

end WalletLedger.Binary64
