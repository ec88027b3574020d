import WalletLedger.Proofs.CalendarDays
import WalletLedger.Timestamp

/-!
# Points in time, as text

The second of a point in time is a date and time of day that the calendar has
(`DateTime.valid_ofSeconds`), as many seconds after the beginning of 1970 as are counted out
(`DateTime.secondsSince1970_ofSeconds`). It is written in fields of digits (`DateTime.WrittenAs`)
that no other second shares (`DateTime.WrittenAs.unique`), and up to the year 9999 what is written
stands in the order of the seconds (`DateTime.chars_lt_iff`, `DateTime.before_ofSeconds_iff`).
`Timestamp.text_of_calendar` says all of this of the text of a point in time.
-/

namespace WalletLedger

namespace Decimal

/-! ### Fields of digits -/

/-- Digits that stand for a number. -/
structure Writes (cs : List Char) (n : Nat) : Prop where
  isDigit_of_mem : ∀ c ∈ cs, c.isDigit
  value_eq : value cs = n

theorem writes_padded (width n : Nat) : Writes (padded width n) n :=
  ⟨fun _ => isDigit_of_mem_padded, value_padded width n⟩

theorem Writes.eq {cs : List Char} {n m : Nat} (hn : Writes cs n) (hm : Writes cs m) : n = m := by
  rw [← hn.value_eq, hm.value_eq]

/-- A field ends where there is no more digit. -/
theorem Writes.append_cons_inj {cs ds xs ys : List Char} {n m : Nat} {c : Char}
    (hcs : Writes cs n) (hds : Writes ds m) (hc : ¬c.isDigit)
    (h : cs ++ c :: xs = ds ++ c :: ys) : n = m ∧ xs = ys := by
  have htake := congrArg (List.takeWhile Char.isDigit) h
  have hdrop := congrArg (List.dropWhile Char.isDigit) h
  rw [takeWhile_isDigit_append hcs.isDigit_of_mem hc,
    takeWhile_isDigit_append hds.isDigit_of_mem hc] at htake
  rw [dropWhile_isDigit_append hcs.isDigit_of_mem hc,
    dropWhile_isDigit_append hds.isDigit_of_mem hc] at hdrop
  subst htake
  exact ⟨hcs.eq hds, (List.cons.inj hdrop).2⟩

/-- Only a number that is filled up begins with a zero. -/
theorem length_padded_of_head? {width n : Nat} (hwidth : 0 < width)
    (h : (padded width n).head? = some '0') : (padded width n).length = width := by
  rw [length_padded, Nat.max_eq_left]
  by_contra hlong
  have hfull : width - (digits n).length = 0 := by omega
  rw [padded, hfull, List.replicate_zero, List.nil_append] at h
  obtain rfl := eq_zero_of_head?_digits h
  exact hlong hwidth

section Order

variable {width n m : Nat} (hwidth : 0 < width) (hn : n < 10 ^ width) (hm : m < 10 ^ width)
include hwidth hn hm

theorem padded_lt_padded_iff : padded width n < padded width m ↔ n < m := by
  have hlength : (padded width n).length = (padded width m).length := by
    rw [length_padded_of_lt hwidth hn, length_padded_of_lt hwidth hm]
  rw [lt_iff_value_lt (fun _ => isDigit_of_mem_padded) (fun _ => isDigit_of_mem_padded) hlength,
    value_padded, value_padded]

/-- Numbers that fit in their fields are compared before what stands behind them. -/
theorem padded_append_lt_iff {c : Char} {xs ys : List Char} :
    padded width n ++ c :: xs < padded width m ++ c :: ys ↔ n < m ∨ n = m ∧ xs < ys := by
  have hlength : (padded width n).length = (padded width m).length := by
    rw [length_padded_of_lt hwidth hn, length_padded_of_lt hwidth hm]
  have hinj : padded width n = padded width m ↔ n = m :=
    ⟨fun h => (writes_padded width n).eq (h ▸ writes_padded width m), fun h => by rw [h]⟩
  rw [append_lt_append_iff hlength, padded_lt_padded_iff hwidth hn hm, hinj,
    List.cons_lt_cons_iff]
  simp

end Order

end Decimal

/-- Dates up to the year 9999 are compared before what stands behind them. -/
theorem Date.chars_append_lt_iff {d e : Date} (hd : d.Valid) (he : e.Valid)
    (hdyear : d.year < 10000) (heyear : e.year < 10000) {c : Char} {xs ys : List Char} :
    d.chars ++ c :: xs < e.chars ++ c :: ys ↔ d.Before e ∨ d = e ∧ xs < ys := by
  have hdmonth := hd.month_le
  have hemonth := he.month_le
  have hdday := hd.day_le
  have heday := he.day_le
  simp only [chars, List.append_assoc, List.cons_append]
  rw [Decimal.padded_append_lt_iff (by decide) hdyear heyear,
    Decimal.padded_append_lt_iff (by decide) (by omega) (by omega),
    Decimal.padded_append_lt_iff (by decide) (by omega) (by omega), Before]
  have heq : d = e ↔ d.year = e.year ∧ d.month = e.month ∧ d.day = e.day := by
    cases d
    cases e
    simp
  rw [heq]
  simp only [and_or_left, or_assoc, and_assoc]

namespace DateTime

/-! ### Seconds and back -/

/-- A date of the calendar and a time of the day. -/
structure Valid (t : DateTime) : Prop where
  date : t.date.Valid
  hour_lt : t.hour < 24
  minute_lt : t.minute < 60
  second_lt : t.second < 60

/-- The seconds from the beginning of 1970 to a date and time of day, counted out. -/
def secondsSince1970 (t : DateTime) : Nat :=
  t.date.daysSince 1970 * 86400 + t.hour * 3600 + t.minute * 60 + t.second

theorem valid_ofSeconds (seconds : Nat) : (ofSeconds seconds).Valid where
  date := Date.valid_ofDay _
  hour_lt := by simp only [ofSeconds]; omega
  minute_lt := by simp only [ofSeconds]; omega
  second_lt := by simp only [ofSeconds]; omega

theorem le_year_ofSeconds (seconds : Nat) : 1970 ≤ (ofSeconds seconds).date.year :=
  Date.le_year_ofDay (Nat.le_add_right epochDay _)

theorem toSeconds_ofSeconds (seconds : Nat) : (ofSeconds seconds).toSeconds = seconds := by
  have hday := Date.toDay_ofDay (epochDay + seconds / 86400)
  simp only [toSeconds, ofSeconds, hday]
  omega

theorem toSeconds_eq_secondsSince1970 {t : DateTime} (h : 1970 ≤ t.date.year) :
    t.toSeconds = t.secondsSince1970 := by
  have hepoch : Calendar.daysBeforeYear 1970 = epochDay := rfl
  rw [toSeconds, secondsSince1970, Date.toDay_eq_add_daysSince h, hepoch, Nat.add_sub_cancel_left]

theorem secondsSince1970_ofSeconds (seconds : Nat) :
    (ofSeconds seconds).secondsSince1970 = seconds := by
  rw [← toSeconds_eq_secondsSince1970 (le_year_ofSeconds seconds), toSeconds_ofSeconds]

/-! ### How seconds are written -/

/-- How a date and time of day is written: `YYYY-MM-DD HH:MM:SS`, with more digits for a year that
needs them. -/
def WrittenAs (t : DateTime) (text : String) : Prop :=
  ∃ year month day hour minute second : List Char,
    text.toList = year ++ '-' :: (month ++ '-' :: (day ++ ' ' ::
      (hour ++ ':' :: (minute ++ ':' :: second)))) ∧
    (Decimal.Writes year t.date.year ∧ 4 ≤ year.length ∧
      (year.head? = some '0' → year.length = 4)) ∧
    (Decimal.Writes month t.date.month ∧ month.length = 2) ∧
    (Decimal.Writes day t.date.day ∧ day.length = 2) ∧
    (Decimal.Writes hour t.hour ∧ hour.length = 2) ∧
    (Decimal.Writes minute t.minute ∧ minute.length = 2) ∧
    Decimal.Writes second t.second ∧ second.length = 2

theorem writtenAs_text {t : DateTime} (h : t.Valid) : t.WrittenAs t.text := by
  have hmonth := h.date.month_le
  have hday := h.date.day_le
  have hhour := h.hour_lt
  have hminute := h.minute_lt
  have hsecond := h.second_lt
  have htwo {n : Nat} (hn : n < 10 ^ 2) :
      Decimal.Writes (Decimal.padded 2 n) n ∧ (Decimal.padded 2 n).length = 2 :=
    ⟨Decimal.writes_padded 2 n, Decimal.length_padded_of_lt (by decide) hn⟩
  refine ⟨_, _, _, _, _, _, ?_,
    ⟨Decimal.writes_padded 4 t.date.year, ?_, Decimal.length_padded_of_head? (by decide)⟩,
    htwo (n := t.date.month) (by omega), htwo (n := t.date.day) (by omega),
    htwo (n := t.hour) (by omega), htwo (n := t.minute) (by omega),
    htwo (n := t.second) (by omega)⟩
  · rw [text, String.toList_ofList, chars, Date.chars]
    simp only [List.append_assoc, List.cons_append]
  · rw [Decimal.length_padded]
    exact Nat.le_max_left 4 _

/-- No two dates and times of day are written alike. -/
theorem WrittenAs.unique {t u : DateTime} {text : String} (ht : t.WrittenAs text)
    (hu : u.WrittenAs text) : t = u := by
  obtain ⟨_, _, _, _, _, _, htext, ⟨hy, -⟩, ⟨hm, -⟩, ⟨hd, -⟩, ⟨hh, -⟩, ⟨hi, -⟩, hs, -⟩ := ht
  obtain ⟨_, _, _, _, _, _, hutext, ⟨hy', -⟩, ⟨hm', -⟩, ⟨hd', -⟩, ⟨hh', -⟩, ⟨hi', -⟩, hs', -⟩ := hu
  obtain ⟨hyear, hrest⟩ := hy.append_cons_inj hy' (by decide) (htext.symm.trans hutext)
  obtain ⟨hmonth, hrest⟩ := hm.append_cons_inj hm' (by decide) hrest
  obtain ⟨hday, hrest⟩ := hd.append_cons_inj hd' (by decide) hrest
  obtain ⟨hhour, hrest⟩ := hh.append_cons_inj hh' (by decide) hrest
  obtain ⟨hminute, rfl⟩ := hi.append_cons_inj hi' (by decide) hrest
  obtain ⟨⟨year, month, day⟩, hour, minute, second⟩ := t
  obtain ⟨⟨year', month', day'⟩, hour', minute', second'⟩ := u
  have hsecond := hs.eq hs'
  simp_all

/-! ### The order of seconds -/

/-- A date and time of day before another: of an earlier date, or earlier on the day. -/
def Before (t u : DateTime) : Prop :=
  t.date.Before u.date ∨ t.date = u.date ∧
    (t.hour < u.hour ∨ t.hour = u.hour ∧
      (t.minute < u.minute ∨ t.minute = u.minute ∧ t.second < u.second))

/-- Up to the year 9999 what is written stands in the order of what it stands for. -/
theorem chars_lt_iff {t u : DateTime} (ht : t.Valid) (hu : u.Valid)
    (htyear : t.date.year < 10000) (huyear : u.date.year < 10000) :
    t.chars < u.chars ↔ t.Before u := by
  obtain ⟨htdate, hthour, htminute, htsecond⟩ := ht
  obtain ⟨hudate, huhour, huminute, husecond⟩ := hu
  simp only [chars, List.append_assoc, List.cons_append]
  rw [Date.chars_append_lt_iff htdate hudate htyear huyear,
    Decimal.padded_append_lt_iff (by decide) (by omega) (by omega),
    Decimal.padded_append_lt_iff (by decide) (by omega) (by omega),
    Decimal.padded_lt_padded_iff (by decide) (by omega) (by omega), Before]

/-- Dates and times of day are in the order of the seconds. -/
theorem before_ofSeconds_iff {seconds seconds' : Nat} :
    (ofSeconds seconds).Before (ofSeconds seconds') ↔ seconds < seconds' := by
  have hdate : (ofSeconds seconds).date.Before (ofSeconds seconds').date ↔
      seconds / 86400 < seconds' / 86400 := by
    rw [← Date.toDay_lt_iff (valid_ofSeconds seconds).date (valid_ofSeconds seconds').date]
    simp only [ofSeconds, Date.toDay_ofDay, Nat.add_lt_add_iff_left]
  have hsame : (ofSeconds seconds).date = (ofSeconds seconds').date ↔
      seconds / 86400 = seconds' / 86400 := by
    constructor
    · intro h
      have hday := congrArg Date.toDay h
      simp only [ofSeconds, Date.toDay_ofDay] at hday
      omega
    · intro h
      simp only [ofSeconds, h]
  rw [Before, hdate, hsame]
  simp only [ofSeconds]
  omega

end DateTime

namespace Timestamp

variable {t u : Timestamp}

theorem writtenAs_text (t : Timestamp) : (DateTime.ofSeconds t.seconds).WrittenAs t.text :=
  DateTime.writtenAs_text (DateTime.valid_ofSeconds t.seconds)

/-- Points in time have the same text exactly if they fall in the same second. -/
theorem text_eq_iff : t.text = u.text ↔ t.seconds = u.seconds := by
  constructor
  · intro h
    have hwritten := u.writtenAs_text
    rw [← h] at hwritten
    have hsame := t.writtenAs_text.unique hwritten
    rw [← DateTime.toSeconds_ofSeconds t.seconds, hsame, DateTime.toSeconds_ofSeconds]
  · intro h
    rw [text, h, text]

/-- **A point in time is shown as its second of the calendar.** Its text is that of a date and time
of day that the calendar has, as many seconds after the beginning of 1970 as there are full seconds
in it; points in time have the same text exactly if they fall in the same second; and before the
year 10000 their texts are ordered as the seconds are. -/
theorem text_of_calendar (t u : Timestamp) :
    ((DateTime.ofSeconds t.seconds).WrittenAs t.text ∧
      (DateTime.ofSeconds t.seconds).Valid ∧
      1970 ≤ (DateTime.ofSeconds t.seconds).date.year ∧
      (DateTime.ofSeconds t.seconds).secondsSince1970 = t.milliseconds.toNat / 1000) ∧
    (t.text = u.text ↔ t.milliseconds.toNat / 1000 = u.milliseconds.toNat / 1000) ∧
    ((DateTime.ofSeconds t.seconds).date.year < 10000 →
      (DateTime.ofSeconds u.seconds).date.year < 10000 →
      (t.text < u.text ↔ t.milliseconds.toNat / 1000 < u.milliseconds.toNat / 1000)) := by
  have hvalid := DateTime.valid_ofSeconds t.seconds
  refine ⟨⟨t.writtenAs_text, hvalid, DateTime.le_year_ofSeconds t.seconds,
    DateTime.secondsSince1970_ofSeconds t.seconds⟩, text_eq_iff, fun htyear huyear => ?_⟩
  have horder := DateTime.chars_lt_iff hvalid (DateTime.valid_ofSeconds u.seconds) htyear huyear
  rw [String.lt_iff, text, text, DateTime.text, DateTime.text, String.toList_ofList,
    String.toList_ofList, horder, DateTime.before_ofSeconds_iff]
  rfl

/-- The last millisecond of the leap day of 2000 and the first one after it. -/
theorem text_of_calendar_leap_day :
    let t : Timestamp := ⟨951868799999⟩
    let u : Timestamp := ⟨951868800000⟩
    (DateTime.ofSeconds t.seconds).date.year < 10000 ∧
      (DateTime.ofSeconds u.seconds).date.year < 10000 ∧
      t.text = "2000-02-29 23:59:59" ∧ u.text = "2000-03-01 00:00:00" ∧ t.text < u.text := by
  intro t u
  have htyear : (DateTime.ofSeconds t.seconds).date.year < 10000 := by decide
  have huyear : (DateTime.ofSeconds u.seconds).date.year < 10000 := by decide
  obtain ⟨-, -, horder⟩ := text_of_calendar t u
  exact ⟨htyear, huyear, by decide, by decide, (horder htyear huyear).2 (by decide)⟩

end Timestamp

end WalletLedger
