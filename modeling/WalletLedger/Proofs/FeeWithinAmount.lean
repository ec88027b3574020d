import Mathlib.Algebra.Order.Ring.Rat
import Mathlib.Tactic.Linarith
import Mathlib.Tactic.NormNum
import WalletLedger.Balance
import WalletLedger.Proofs.Amounts
import WalletLedger.Proofs.FeeCeiling

/-!
# Fees that an amount can pay

A hundredth of an amount is rounded, and a hundred of these hundredths need not be the amount. Up to
`2 ^ 51` units, more than there are coins to count, they are less than half a unit away from it
(`abs_raw_sub_lt_half`), so that the whole of an amount is charged as the whole of it
(`wholeUnits_raw_of_hundred`). Smaller percentages come to no more, and a fee whose minimum is
within the amount can be paid out of it (`fee_le_max`).
-/

namespace WalletLedger.FeeSchedule

open Binary64 (abs_nearest_sub_le_of_lt nearest_of_onGrid onGrid_intCast)

variable {s : FeeSchedule} {a : Amount}

/-! ### A hundred percent -/

/-- The amount itself is rounded from `2 ^ 53` on only. -/
theorem nearest_units (ha : a.units.toNat ≤ 2 ^ 51) :
    Binary64.nearest a.units.toNat = a.units.toNat := by
  have hgrid := onGrid_intCast (n := a.units.toNat) (by rw [abs_of_nonneg (by omega)]; omega)
  rw [Int.cast_natCast] at hgrid
  exact nearest_of_onGrid hgrid

theorem abs_raw_sub_lt_half (hp : s.percentage.value = 100) (ha : a.units.toNat ≤ 2 ^ 51) :
    |s.raw a - a.units.toNat| < 1 / 2 := by
  have hunits : (0 : ℚ) ≤ a.units.toNat := Nat.cast_nonneg _
  have hle : (a.units.toNat : ℚ) ≤ 2 ^ 51 := by exact_mod_cast ha
  unfold raw
  rw [nearest_units ha, hp]
  generalize (a.units.toNat : ℚ) = n at hunits hle ⊢
  -- a relative bound on the two errors would come to one half, so each is bounded by the power of
  -- two above the number that is rounded
  have hhundredth : |Binary64.nearest (n / 100) - n / 100| ≤ 2 ^ (45 - 54 : ℤ) :=
    abs_nearest_sub_le_of_lt (by decide) (by rw [abs_of_nonneg (by linarith)]; linarith)
  generalize Binary64.nearest (n / 100) = hundredth at hhundredth ⊢
  norm_num at hhundredth
  rw [abs_le] at hhundredth
  have hproduct : |Binary64.nearest (hundredth * 100) - hundredth * 100| ≤ 2 ^ (52 - 54 : ℤ) :=
    abs_nearest_sub_le_of_lt (by decide) (by rw [abs_lt]; constructor <;> linarith)
  norm_num at hproduct
  rw [abs_le] at hproduct
  rw [abs_lt]
  constructor <;> linarith

/-- A hundred percent of an amount is the amount: what the roundings add or take is given back. -/
theorem wholeUnits_raw_of_hundred (hs : s.IsNonneg) (hp : s.percentage.value = 100)
    (ha : a.units.toNat ≤ 2 ^ 51) : wholeUnits (s.raw a) = a.units.toNat := by
  have hshare : s.share a = a.units.toNat := by
    unfold share
    rw [hp, mul_div_cancel_right₀ _ (by norm_num)]
  have hrounds := rounds_raw_of_percentage (a := a) (p := 100) hs (by rw [hp]; norm_num)
  have hnoise := abs_sub_le_of_rounds hrounds (share_nonneg hs a)
  rw [hshare] at hnoise
  have hslack := le_slack a.units.toNat
  rw [Int.cast_natCast] at hslack
  have hmax : (a.units.toNat : ℚ) ≤ max 1 (a.units.toNat : ℚ) := le_max_right _ _
  norm_num at hnoise
  refine wholeUnits_of_abs_sub_le (onGrid_raw s a) ?_ ?_
  · exact_mod_cast abs_raw_sub_lt_half hp ha
  · rw [Int.cast_natCast]
    linarith

/-! ### Up to a hundred percent -/

/-- The schedule that takes the whole of an amount. -/
def takeAll : FeeSchedule := ⟨⟨0x4059000000000000⟩, 0⟩

theorem takeAll_value : takeAll.percentage.value = 100 := by decide +kernel

theorem takeAll_isNonneg : takeAll.IsNonneg :=
  ⟨by decide +kernel, by rw [takeAll_value]; norm_num⟩

theorem raw_le_takeAll (hs : s.IsNonneg) (hp : s.percentage.value ≤ 100) (a : Amount) :
    s.raw a ≤ takeAll.raw a :=
  raw_mono hs (UInt64.le_refl a.units) (by rwa [takeAll_value])

theorem raw_lt_of_le (hs : s.IsNonneg) (hp : s.percentage.value ≤ 100)
    (ha : a.units.toNat ≤ 2 ^ 51) : s.raw a < 2 ^ 64 := by
  have hraw := raw_le_takeAll hs hp a
  have hall := (abs_lt.1 (abs_raw_sub_lt_half takeAll_value ha)).2
  have hle : (a.units.toNat : ℚ) ≤ 2 ^ 51 := by exact_mod_cast ha
  linarith

theorem wholeUnits_raw_le (hs : s.IsNonneg) (hp : s.percentage.value ≤ 100)
    (ha : a.units.toNat ≤ 2 ^ 51) : wholeUnits (s.raw a) ≤ a.units.toNat :=
  calc wholeUnits (s.raw a) ≤ wholeUnits (takeAll.raw a) :=
        wholeUnits_mono (onGrid_raw s a) (onGrid_raw takeAll a) (raw_le_takeAll hs hp a)
    _ = a.units.toNat := wholeUnits_raw_of_hundred takeAll_isNonneg takeAll_value ha

/-- A fee of at most a hundred percent is never more than the amount, unless its minimum is, and a
hundred percent is the amount. So an amount can be charged any such fee whose minimum it holds. -/
theorem fee_le_max (hs : s.IsNonneg) (hp : s.percentage.value ≤ 100)
    (ha : a.units.toNat ≤ 2 ^ 51) :
    (s.fee a).units ≤ max a.units s.minimum ∧
    (s.percentage.value = 100 → (s.fee a).units = max a.units s.minimum) ∧
    (s.minimum ≤ a.units → ∃ rest, a.subtract (s.fee a) = .ok rest ∧
      rest.units.toNat + (s.fee a).units.toNat = a.units.toNat ∧
      Balance.answer a (.charge s) = .ok (.charged (s.fee a) (.ok rest)) ∧
      Balance.next a (.charge s) = rest) := by
  have hfee := fee_toNat hs (raw_lt_of_le hs hp ha)
  have hwhole := wholeUnits_raw_le hs hp ha
  refine ⟨?_, fun hall => ?_, fun hmin => ?_⟩
  · rw [UInt64.le_iff_toNat_le, UInt64.toNat_max]
    omega
  · rw [wholeUnits_raw_of_hundred hs hall ha] at hfee
    rw [← UInt64.toNat_inj, UInt64.toNat_max]
    omega
  · rw [UInt64.le_iff_toNat_le] at hmin
    obtain ⟨rest, hrest, hsum⟩ :=
      Amount.exists_subtract_eq_ok (a := a) (b := s.fee a) (by omega)
    have hanswer : Balance.answer a (.charge s) = .ok (.charged (s.fee a) (.ok rest)) := by
      rw [Balance.answer, hrest]
    refine ⟨rest, hrest, hsum, hanswer, ?_⟩
    rw [Balance.next, hanswer]
    rfl

/-- A hundred times the hundredth of this amount, which is four below the bound, is a quarter of a
unit more than the amount. -/
theorem fee_le_max_near_bound :
    takeAll.IsNonneg ∧ takeAll.percentage.value ≤ 100 ∧ (2251799813685244 : UInt64).toNat ≤ 2 ^ 51 ∧
      (takeAll.fee ⟨2251799813685244⟩).units = max 2251799813685244 0 ∧
      ∃ rest, Balance.answer ⟨2251799813685244⟩ (.charge takeAll) =
        .ok (.charged (takeAll.fee ⟨2251799813685244⟩) (.ok rest)) := by
  have hp : takeAll.percentage.value ≤ 100 := takeAll_value.le
  have ha : (2251799813685244 : UInt64).toNat ≤ 2 ^ 51 := by decide
  obtain ⟨-, hall, hcharge⟩ := fee_le_max (a := ⟨2251799813685244⟩) takeAll_isNonneg hp ha
  obtain ⟨rest, -, -, hanswer, -⟩ := hcharge (by decide)
  exact ⟨takeAll_isNonneg, hp, ha, hall takeAll_value, rest, hanswer⟩

end WalletLedger.FeeSchedule
