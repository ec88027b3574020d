import Mathlib.Algebra.Order.Ring.Rat
import Mathlib.Tactic.Linarith
import Mathlib.Tactic.NormNum
import WalletLedger.Proofs.FeeBounds

/-!
# Fees and the range of words

Percentages below zero are not refused, and a raw fee between minus one and zero is meant to come to
nothing. It does, unless it is so close to minus one that it counts as that number
(`wholeUnits_eq_neg_one_iff`), which no word can hold. `wholeUnits_raw_range` says that this is the
only way out of the range of words: every other raw fee above minus one and below `2 ^ 64` comes to
a whole number that the word takes as it is.
-/

namespace WalletLedger.FeeSchedule

open Binary64 (OnGrid onGrid_nearest nearest_of_onGrid)

variable {s : FeeSchedule} {a : Amount} {x : ℚ}

/-- The raw fee is a number of which a word could hold the whole units. -/
structure RawInRange (s : FeeSchedule) (a : Amount) : Prop where
  finite : s.percentage.isFinite
  gt : -1 < s.raw a
  lt : s.raw a < 2 ^ 64

/-! ### Near minus one -/

/-- Up to one the slack is the tolerance itself, below zero too. -/
theorem slack_of_le_one {n : ℤ} (h : n ≤ 1) : slack n = tolerance := by
  have hmax : max (1 : ℚ) n = 1 := max_eq_left (by exact_mod_cast h)
  rw [slack_eq, hmax, mul_one, tolerance]
  exact nearest_of_onGrid (onGrid_nearest _)

theorem tolerance_lt_half : tolerance < 1 / 2 := by decide +kernel

theorem neg_one_le_wholeUnits (h : -1 < x) : -1 ≤ wholeUnits x :=
  (Rat.le_floor_iff.2 (by exact_mod_cast h.le)).trans (floor_le_wholeUnits x)

theorem wholeUnits_eq_neg_one_iff (hx : OnGrid x) (h : -1 < x) :
    wholeUnits x = -1 ↔ x ≤ -1 + tolerance := by
  constructor
  · intro hneg
    by_cases hwhole : CountsAsWhole x
    · have hnear := (wholeUnits_of_countsAsWhole hx hwhole).symm.trans hneg
      have hdistance := (abs_le.1 hwhole).2
      rw [hnear, slack_of_le_one (by decide)] at hdistance
      push_cast at hdistance
      linarith
    · -- going up never ends below the number itself
      rw [wholeUnits_of_not_countsAsWhole hx hwhole] at hneg
      have hceil := Rat.le_ceil (x := x)
      rw [hneg] at hceil
      push_cast at hceil
      linarith
  · intro hclose
    have hdistance : |x - (-1 : ℤ)| = x + 1 := by
      push_cast
      rw [sub_neg_eq_add, abs_of_pos (by linarith)]
    have hhalf := tolerance_lt_half
    refine wholeUnits_of_abs_sub_le hx ?_ ?_
    · rw [hdistance]
      linarith
    · rw [hdistance, slack_of_le_one (by decide)]
      linarith

/-! ### Words -/

/-- The whole units of a raw fee in range stay in range, unless the raw fee counts as minus one.
Those that do go into the word unchanged, and a raw fee that is not above zero costs the minimum. -/
theorem wholeUnits_raw_range (h : s.RawInRange a) :
    wholeUnits (s.raw a) < 2 ^ 64 ∧
    (-1 < wholeUnits (s.raw a) ↔ -1 + tolerance < s.raw a) ∧
    (s.raw a ≤ -1 + tolerance → wholeUnits (s.raw a) = -1) ∧
    (-1 + tolerance < s.raw a →
      ((s.fee a).units.toNat : ℤ) = max (wholeUnits (s.raw a)) s.minimum.toNat ∧
      (s.raw a ≤ 0 → (s.fee a).units = s.minimum)) := by
  have hlow := neg_one_le_wholeUnits h.gt
  have hiff := wholeUnits_eq_neg_one_iff (onGrid_raw s a) h.gt
  have hrange : -1 < wholeUnits (s.raw a) ↔ -1 + tolerance < s.raw a := by
    rw [← not_le (a := s.raw a), ← hiff]
    omega
  refine ⟨wholeUnits_lt (onGrid_raw s a) h.lt, hrange, hiff.2, fun hfar => ?_⟩
  have hnonneg : 0 ≤ wholeUnits (s.raw a) := by
    have := hrange.2 hfar
    omega
  have hfee := fee_toNat_of_nonneg hnonneg h.lt
  refine ⟨hfee, fun hnothing => ?_⟩
  have hceil : (s.raw a).ceil ≤ 0 := Rat.ceil_le_iff.2 (by exact_mod_cast hnothing)
  have := wholeUnits_le_ceil (s.raw a)
  rw [← UInt64.toNat_inj]
  omega

/-- Minus 0.99999999 percent of a hundred is far enough from minus one. -/
theorem wholeUnits_raw_range_below_zero :
    let s : FeeSchedule := ⟨⟨0xbfeffffffaa19c47⟩, 5⟩
    s.RawInRange ⟨100⟩ ∧ -1 + tolerance < s.raw ⟨100⟩ ∧ -1 < wholeUnits (s.raw ⟨100⟩) ∧
      (s.fee ⟨100⟩).units = 5 := by
  intro s
  have h : s.RawInRange ⟨100⟩ := ⟨by decide +kernel, by decide +kernel, by decide +kernel⟩
  have hfar : -1 + tolerance < s.raw ⟨100⟩ := by decide +kernel
  obtain ⟨-, hrange, -, hfee⟩ := wholeUnits_raw_range h
  exact ⟨h, hfar, hrange.2 hfar, (hfee hfar).2 (by decide +kernel)⟩

/-- The least percentage above minus one comes, on a hundred, to a raw fee that counts as minus one,
and the fee is not the minimum. -/
theorem wholeUnits_raw_leaves_range :
    let s : FeeSchedule := ⟨⟨0xbfefffffffffffff⟩, 5⟩
    s.RawInRange ⟨100⟩ ∧ s.raw ⟨100⟩ ≤ 0 ∧ ¬-1 < wholeUnits (s.raw ⟨100⟩) ∧
      (s.fee ⟨100⟩).units ≠ s.minimum :=
  ⟨⟨by decide +kernel, by decide +kernel, by decide +kernel⟩, by decide +kernel, by decide +kernel,
    by decide +kernel⟩

end WalletLedger.FeeSchedule
