import Mathlib.Algebra.Order.Ring.Rat
import Mathlib.Tactic.Linarith
import Mathlib.Tactic.Ring
import WalletLedger.Rounding

/-!
# The nearest whole number

Whatever is done with ties, the nearest whole number lies at most one half away
(`abs_nearest_sub_le`), between the floor and the ceiling, and follows the number that is rounded
(`nearest_mono`). Both rules for ties treat numbers below zero like those above (`nearest_neg`).
-/

namespace WalletLedger.Rounding

variable {tie : Tie} {x y : ℚ}

/-! ### The three cases -/

theorem nearest_of_lt_half (h : x - x.floor < 1 / 2) : nearest tie x = x.floor := if_pos h

theorem nearest_of_half_lt (h : 1 / 2 < x - x.floor) : nearest tie x = x.floor + 1 := by
  unfold nearest
  rw [if_neg (not_lt.2 h.le), if_pos h]

/-- A half goes to the lower neighbour if that is even, and else to the upper one. -/
theorem nearest_toEven_of_half (h : x - x.floor = 1 / 2) :
    nearest .toEven x = x.floor + x.floor % 2 := by
  unfold nearest
  rw [if_neg (not_lt.2 h.ge), if_neg (not_lt.2 h.le)]

/-- A half goes to the neighbour further from zero, which is the lower one below zero. -/
theorem nearest_awayFromZero_of_half (h : x - x.floor = 1 / 2) :
    nearest .awayFromZero x = if x < 0 then x.floor else x.floor + 1 := by
  unfold nearest
  rw [if_neg (not_lt.2 h.ge), if_neg (not_lt.2 h.le)]

/-- Both rules take one of the two neighbours, and a whole number is its own lower neighbour. -/
theorem nearest_eq_floor_or (tie : Tie) (x : ℚ) :
    nearest tie x = x.floor ∨ nearest tie x = x.floor + 1 := by
  rcases lt_trichotomy (x - x.floor) (1 / 2) with h | h | h
  · exact Or.inl (nearest_of_lt_half h)
  · cases tie with
    | toEven =>
      rw [nearest_toEven_of_half h]
      omega
    | awayFromZero =>
      rw [nearest_awayFromZero_of_half h]
      split <;> omega
  · exact Or.inr (nearest_of_half_lt h)

theorem floor_le_nearest (tie : Tie) (x : ℚ) : x.floor ≤ nearest tie x := by
  rcases nearest_eq_floor_or tie x with h | h <;> omega

theorem nearest_le_floor_add_one (tie : Tie) (x : ℚ) : nearest tie x ≤ x.floor + 1 := by
  rcases nearest_eq_floor_or tie x with h | h <;> omega

/-- Rounding moves a number by one half at most, and does so only at a tie. -/
theorem abs_nearest_sub_le (tie : Tie) (x : ℚ) : |(nearest tie x : ℚ) - x| ≤ 1 / 2 := by
  have hlow := Rat.floor_le x
  have hhigh := Rat.lt_floor_add_one x
  push_cast at hhigh
  rw [abs_le]
  rcases lt_trichotomy (x - x.floor) (1 / 2) with h | h | h
  · rw [nearest_of_lt_half h]
    constructor <;> linarith
  · -- at a tie both neighbours are equally near
    rcases nearest_eq_floor_or tie x with hn | hn <;> rw [hn] <;> push_cast <;>
      constructor <;> linarith
  · rw [nearest_of_half_lt h]
    push_cast
    constructor <;> linarith

theorem nearest_of_abs_sub_lt {n : ℤ} (h : |x - n| < 1 / 2) : nearest tie x = n := by
  have hdistance := abs_nearest_sub_le tie x
  have htriangle := abs_sub_le (nearest tie x : ℚ) x n
  have hlt : |(nearest tie x : ℚ) - n| < 1 := by linarith
  have hzero : |nearest tie x - n| < 1 := by exact_mod_cast hlt
  have := Int.abs_lt_one_iff.1 hzero
  omega

/-- A number that is not rounded to zero is at least one half away from it. -/
theorem half_le_abs (h : nearest tie x ≠ 0) : 1 / 2 ≤ |x| := by
  have hone : (1 : ℚ) ≤ |(nearest tie x : ℚ)| := by
    exact_mod_cast Int.one_le_abs h
  have hdistance := abs_nearest_sub_le tie x
  have htriangle := abs_sub_abs_le_abs_sub (nearest tie x : ℚ) x
  linarith

@[simp] theorem nearest_intCast (tie : Tie) (n : ℤ) : nearest tie n = n := by
  rw [nearest_of_lt_half (by rw [Rat.floor_intCast]; norm_num), Rat.floor_intCast]

/-- No number is rounded past the next whole number above it. -/
theorem nearest_le_ceil (tie : Tie) (x : ℚ) : nearest tie x ≤ x.ceil := by
  by_cases h : x = x.floor
  · rw [h, nearest_intCast, Rat.ceil_intCast]
  · have hlt : (x.floor : ℚ) < x := lt_of_le_of_ne (Rat.floor_le x) (Ne.symm h)
    have := Rat.lt_ceil_iff.2 hlt
    have := nearest_le_floor_add_one tie x
    omega

/-! ### Order -/

/-- Rounding keeps the order. Two numbers between the same whole numbers are told apart by their
distance from the lower one. -/
theorem nearest_mono (tie : Tie) (h : x ≤ y) : nearest tie x ≤ nearest tie y := by
  have hfloor := Rat.floor_monotone h
  by_cases hlt : x.floor < y.floor
  · have := nearest_le_floor_add_one tie x
    have := floor_le_nearest tie y
    omega
  · -- between the same two whole numbers it is the distance to the lower one that counts
    have heq : y.floor = x.floor := by omega
    rcases lt_trichotomy (x - x.floor) (1 / 2) with hx | hx | hx
    · rw [nearest_of_lt_half hx, ← heq]
      exact floor_le_nearest tie y
    · by_cases hxy : x = y
      · rw [hxy]
      · have hy : 1 / 2 < y - y.floor := by
          rw [heq, ← hx]
          have := lt_of_le_of_ne h hxy
          linarith
        rw [nearest_of_half_lt hy, heq]
        exact nearest_le_floor_add_one tie x
    · have hy : 1 / 2 < y - y.floor := by
        rw [heq]
        linarith
      rw [nearest_of_half_lt hx, nearest_of_half_lt hy, heq]

theorem le_nearest {n : ℤ} (h : (n : ℚ) ≤ x) : n ≤ nearest tie x := by
  have := nearest_mono tie h
  rwa [nearest_intCast] at this

theorem nearest_le {n : ℤ} (h : x ≤ n) : nearest tie x ≤ n := by
  have := nearest_mono tie h
  rwa [nearest_intCast] at this

/-! ### Signs -/

/-- The floor of a negated number, which is not the negated floor where there are places behind the
point. -/
theorem floor_neg_of_ne (h : x ≠ x.floor) : (-x).floor = -x.floor - 1 := by
  have hlow : (x.floor : ℚ) < x := lt_of_le_of_ne (Rat.floor_le x) (Ne.symm h)
  have hhigh := Rat.lt_floor_add_one x
  push_cast at hhigh
  apply le_antisymm
  · refine Int.le_sub_one_of_lt (Rat.floor_lt_iff.2 ?_)
    push_cast
    linarith
  · refine Rat.le_floor_iff.2 ?_
    push_cast
    linarith

/-- Rounding does not depend on the sign, with either rule for ties. The neighbours of a negated
number are negated and change sides. -/
theorem nearest_neg (tie : Tie) (x : ℚ) : nearest tie (-x) = -nearest tie x := by
  by_cases hx : x = x.floor
  · rw [hx, ← Rat.intCast_neg, nearest_intCast, nearest_intCast]
  · have hneg := floor_neg_of_ne hx
    have hdistance : -x - (-x).floor = 1 - (x - x.floor) := by
      rw [hneg]
      push_cast
      ring
    rcases lt_trichotomy (x - x.floor) (1 / 2) with h | h | h
    · rw [nearest_of_lt_half h, nearest_of_half_lt (by rw [hdistance]; linarith), hneg]
      omega
    · have hhalf : -x - (-x).floor = 1 / 2 := by
        rw [hdistance, h]
        norm_num
      cases tie with
      | toEven =>
        rw [nearest_toEven_of_half h, nearest_toEven_of_half hhalf, hneg]
        omega
      | awayFromZero =>
        rw [nearest_awayFromZero_of_half h, nearest_awayFromZero_of_half hhalf, hneg]
        rcases lt_trichotomy x 0 with hsign | hsign | hsign
        · rw [if_pos hsign, if_neg (by linarith)]
          omega
        · rw [hsign] at hx
          exact absurd rfl hx
        · rw [if_pos (by linarith), if_neg (by linarith)]
          omega
    · rw [nearest_of_half_lt h, nearest_of_lt_half (by rw [hdistance]; linarith), hneg]
      omega

end WalletLedger.Rounding
