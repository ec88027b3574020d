import WalletLedger.Calendar
import WalletLedger.Proofs.DecimalTexts
import Mathlib.Algebra.Order.BigOperators.Group.List
import Mathlib.Algebra.Order.Ring.Int

/-!
# Days and dates

The days before a year are those of all years before it (`Calendar.daysBeforeYear_eq_sum`), and the
months of a year make up its days (`Calendar.sum_monthLengths`). So each day has a date that the
calendar has (`Date.valid_ofDay`) and that leads back to the day (`Date.toDay_ofDay`). A date lies
as many days after the beginning of a year as are counted out (`Date.toDay_eq_add_daysSince`), and
dates are ordered by year, month and day as their days are (`Date.toDay_lt_iff`).
-/

namespace WalletLedger

namespace Calendar

/-! ### Years -/

theorem monotone_daysBeforeYear : Monotone daysBeforeYear :=
  monotone_nat_of_le_succ fun year => by
    rw [daysBeforeYear_succ]
    exact Nat.le_add_right _ _

/-- The days before a year are counted out year by year. -/
theorem daysBeforeYear_eq_sum (first count : Nat) :
    daysBeforeYear (first + count) =
      daysBeforeYear first + ((List.range' first count).map daysInYear).sum := by
  induction count with
  | zero => rfl
  | succ count ih =>
    rw [← Nat.add_assoc, daysBeforeYear_succ, ih, List.range'_concat, List.map_append,
      List.sum_append, Nat.one_mul, List.map_singleton, List.sum_singleton, Nat.add_assoc]

/-- A day falls within the year that is found for it. -/
theorem sub_daysBeforeYear_lt (day : Nat) :
    day - daysBeforeYear (yearOfDay day) < daysInYear (yearOfDay day) := by
  have hle := daysBeforeYear_yearOfDay_le day
  have hlt := lt_daysBeforeYear_yearOfDay day
  rw [daysBeforeYear_succ] at hlt
  omega

/-! ### Months -/

theorem daysBeforeMonth_eq_sum (year months : Nat) :
    daysBeforeMonth year months = ((monthLengths year).take months).sum := rfl

/-- The months of a year make up the year. -/
theorem sum_monthLengths (year : Nat) : (monthLengths year).sum = daysInYear year := by
  unfold monthLengths daysInYear
  split <;> rfl

theorem daysBeforeMonth_le (year months : Nat) :
    daysBeforeMonth year months ≤ daysInYear year := by
  rw [daysBeforeMonth_eq_sum, ← sum_monthLengths,
    ← List.sum_take_add_sum_drop (monthLengths year) months]
  exact Nat.le_add_right _ _

theorem monotone_daysBeforeMonth (year : Nat) : Monotone (daysBeforeMonth year) :=
  (monthLengths year).monotone_sum_take

theorem daysBeforeMonth_succ {year months length : Nat}
    (h : (monthLengths year)[months]? = some length) :
    daysBeforeMonth year (months + 1) = daysBeforeMonth year months + length := by
  rw [daysBeforeMonth_eq_sum, daysBeforeMonth_eq_sum, List.take_add_one, h, List.sum_append]
  rfl

/-- Whole months are taken off as long as there are days for them. -/
theorem wholeMonths_spec {lengths : List Nat} {days : Nat} (h : days < lengths.sum) :
    ∃ length, lengths[(wholeMonths lengths days).1]? = some length ∧
      (wholeMonths lengths days).2 < length ∧
      (lengths.take (wholeMonths lengths days).1).sum + (wholeMonths lengths days).2 = days := by
  induction lengths generalizing days with
  | nil => simp at h
  | cons length rest ih =>
    rw [List.sum_cons] at h
    by_cases hlt : days < length
    · exact ⟨length, by simp [wholeMonths, hlt]⟩
    · have hrest : days - length < rest.sum := by omega
      obtain ⟨last, hlast, hfits, hsum⟩ := ih hrest
      refine ⟨last, ?_⟩
      simp only [wholeMonths, if_neg hlt, List.getElem?_cons_succ, List.take_succ_cons,
        List.sum_cons]
      exact ⟨hlast, hfits, by omega⟩

end Calendar

namespace Date

open Calendar

/-! ### Days and back -/

theorem valid_ofDay (day : Nat) : (ofDay day).Valid := by
  have hday := sub_daysBeforeYear_lt day
  rw [← sum_monthLengths] at hday
  obtain ⟨length, hlength, hfits, -⟩ := wholeMonths_spec hday
  exact ⟨Nat.le_add_left 1 _, Nat.le_add_left 1 _, length, hlength, hfits⟩

/-- The date of a day leads back to the day. -/
theorem toDay_ofDay (day : Nat) : (ofDay day).toDay = day := by
  have hday := sub_daysBeforeYear_lt day
  rw [← sum_monthLengths] at hday
  obtain ⟨-, -, -, hsum⟩ := wholeMonths_spec hday
  have hle := daysBeforeYear_yearOfDay_le day
  simp only [toDay, ofDay, Nat.add_sub_cancel, daysBeforeMonth_eq_sum]
  omega

theorem le_year_ofDay {first day : Nat} (h : daysBeforeYear first ≤ day) :
    first ≤ (ofDay day).year := by
  by_contra hlt
  have hmono := monotone_daysBeforeYear (Nat.succ_le_of_lt (Nat.not_le.1 hlt))
  have := lt_daysBeforeYear_yearOfDay day
  change daysBeforeYear (yearOfDay day + 1) ≤ _ at hmono
  omega

/-- The days from the beginning of a year to a date, counted out: all days of the years in between,
those of the months before, and those of the month before the date. -/
def daysSince (first : Nat) (d : Date) : Nat :=
  ((List.range' first (d.year - first)).map daysInYear).sum +
    ((monthLengths d.year).take (d.month - 1)).sum + (d.day - 1)

theorem toDay_eq_add_daysSince {first : Nat} {d : Date} (h : first ≤ d.year) :
    d.toDay = daysBeforeYear first + d.daysSince first := by
  have hyears := daysBeforeYear_eq_sum first (d.year - first)
  rw [Nat.add_sub_cancel' h] at hyears
  rw [toDay, hyears, daysBeforeMonth_eq_sum, daysSince]
  omega

/-! ### The order of dates -/

/-- A date before another: of an earlier year, or of an earlier month of the year, or an earlier day
of the month. -/
def Before (d e : Date) : Prop :=
  d.year < e.year ∨
    d.year = e.year ∧ (d.month < e.month ∨ d.month = e.month ∧ d.day < e.day)

variable {d e : Date}

/-- Months are followed by days, of which there are as many as the month has. -/
theorem Valid.daysBeforeMonth_lt (h : d.Valid) :
    daysBeforeMonth d.year (d.month - 1) + (d.day - 1) <
      daysBeforeMonth d.year (d.month - 1 + 1) := by
  obtain ⟨-, hday, length, hlength, hfits⟩ := h
  rw [daysBeforeMonth_succ hlength]
  omega

/-- Years are followed by days, of which there are as many as the year has. -/
theorem Valid.daysBeforeYear_lt (h : d.Valid) :
    daysBeforeYear d.year + (daysBeforeMonth d.year (d.month - 1) + (d.day - 1)) <
      daysBeforeYear (d.year + 1) := by
  have hmonth := h.daysBeforeMonth_lt
  have hyear := daysBeforeMonth_le d.year (d.month - 1 + 1)
  rw [daysBeforeYear_succ]
  omega

theorem Valid.month_le (h : d.Valid) : d.month ≤ 12 := by
  obtain ⟨hmonth, -, length, hlength, -⟩ := h
  have hlt : d.month - 1 < 12 := (List.getElem?_eq_some_iff.1 hlength).1
  omega

theorem Valid.day_le (h : d.Valid) : d.day ≤ 31 := by
  obtain ⟨-, -, length, hlength, hfits⟩ := h
  have hmem := List.mem_of_getElem? hlength
  have hle : length ≤ 31 := by
    unfold monthLengths at hmem
    split at hmem <;> simp at hmem <;> omega
  omega

/-- Valid dates are in the order of their days. -/
theorem toDay_lt_iff (hd : d.Valid) (he : e.Valid) : d.toDay < e.toDay ↔ d.Before e := by
  rw [Before, toDay, toDay, Nat.add_assoc, Nat.add_assoc,
    add_lt_add_iff_of_monotone monotone_daysBeforeYear hd.daysBeforeYear_lt
      he.daysBeforeYear_lt]
  refine or_congr_right (and_congr_right fun hyear => ?_)
  -- within a year the months are compared before the days
  have hd' := hd.daysBeforeMonth_lt
  have he' := he.daysBeforeMonth_lt
  rw [hyear] at hd'
  rw [hyear, add_lt_add_iff_of_monotone (monotone_daysBeforeMonth e.year) hd' he']
  have := hd.1
  have := he.1
  have := hd.2.1
  have := he.2.1
  omega

end Date

end WalletLedger
