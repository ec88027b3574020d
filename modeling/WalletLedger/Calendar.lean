import WalletLedger.Decimal

/-!
# The calendar

Dates of the Gregorian calendar, carried back before its introduction, and times of day in UTC.
Days are numbered from 1 January of the year 0. `Date.ofDay` finds the year from the mean length
of a year, which is never off by more than one, and the month by taking whole months off the day
of the year; `Date.toDay` goes back. `DateTime.ofSeconds` and `DateTime.toSeconds` do the same for
seconds since 1 January 1970, and `DateTime.text` writes `YYYY-MM-DD HH:MM:SS`.
-/

namespace WalletLedger

namespace Calendar

/-- Every fourth year has a leap day, but of the full centuries only every fourth. -/
def isLeap (year : Nat) : Bool := year % 4 == 0 && (year % 100 != 0 || year % 400 == 0)

/-- How many days a year has. -/
def daysInYear (year : Nat) : Nat := if isLeap year then 366 else 365

/-- How many days each month of a year has. -/
def monthLengths (year : Nat) : List Nat :=
  [31, if isLeap year then 29 else 28, 31, 30, 31, 30, 31, 31, 30, 31, 30, 31]

/-- How many days lie before 1 January of a year: one more than 365 a year for each leap year. -/
def daysBeforeYear (year : Nat) : Nat :=
  365 * year + (year + 3) / 4 - (year + 99) / 100 + (year + 399) / 400

/-- The year of a day. Four hundred years have 146097 days. -/
def yearOfDay (day : Nat) : Nat :=
  let guess := 400 * day / 146097
  if day < daysBeforeYear guess then guess - 1
  else if daysBeforeYear (guess + 1) ≤ day then guess + 1
  else guess

/-- Takes whole months off a number of days: how many there are, and the days that are left. -/
def wholeMonths : List Nat → Nat → Nat × Nat
  | [], days => (0, days)
  | length :: rest, days =>
    if days < length then (0, days)
    else ((wholeMonths rest (days - length)).1 + 1, (wholeMonths rest (days - length)).2)

/-- How many days of a year lie before a month, given its place counted from zero. -/
def daysBeforeMonth (year months : Nat) : Nat :=
  ((monthLengths year).take months).foldr (· + ·) 0

/-- A leap day counts once: for the fourth year, not for the century, but again for the fourth
one. -/
theorem daysInYear_eq (year : Nat) :
    daysInYear year + (if year % 100 = 0 then 1 else 0) =
      365 + (if year % 4 = 0 then 1 else 0) + (if year % 400 = 0 then 1 else 0) := by
  have : year % 400 = 0 → year % 100 = 0 := by omega
  have : year % 100 = 0 → year % 4 = 0 := by omega
  by_cases h4 : year % 4 = 0 <;> by_cases h100 : year % 100 = 0 <;>
    by_cases h400 : year % 400 = 0 <;> simp_all [daysInYear, isLeap]

theorem daysBeforeYear_succ (year : Nat) :
    daysBeforeYear (year + 1) = daysBeforeYear year + daysInYear year := by
  have fourth : (year + 1 + 3) / 4 = (year + 3) / 4 + if year % 4 = 0 then 1 else 0 := by
    split <;> omega
  have century : (year + 1 + 99) / 100 = (year + 99) / 100 + if year % 100 = 0 then 1 else 0 := by
    split <;> omega
  have cycle : (year + 1 + 399) / 400 = (year + 399) / 400 + if year % 400 = 0 then 1 else 0 := by
    split <;> omega
  have leap := daysInYear_eq year
  have centuries : (year + 99) / 100 ≤ 365 * year := by omega
  simp only [daysBeforeYear, fourth, century, cycle]
  generalize (if year % 4 = 0 then 1 else 0) = a at *
  generalize (if year % 100 = 0 then 1 else 0) = b at *
  generalize (if year % 400 = 0 then 1 else 0) = c at *
  generalize (year + 3) / 4 = x at *
  generalize (year + 99) / 100 = y at *
  generalize (year + 399) / 400 = z at *
  omega

theorem daysBeforeYear_yearOfDay_le (day : Nat) : daysBeforeYear (yearOfDay day) ≤ day := by
  simp only [yearOfDay]
  split
  · unfold daysBeforeYear at *; omega
  · split
    · assumption
    · omega

theorem lt_daysBeforeYear_yearOfDay (day : Nat) : day < daysBeforeYear (yearOfDay day + 1) := by
  simp only [yearOfDay]
  split
  · have : 400 * day / 146097 ≠ 0 := by intro h; simp_all [daysBeforeYear]
    rw [Nat.sub_add_cancel (by omega)]
    assumption
  · split
    · unfold daysBeforeYear at *; omega
    · omega

end Calendar

/-- A day of the calendar. Months and days are counted from one. -/
structure Date where
  year : Nat
  month : Nat
  day : Nat
  deriving DecidableEq

namespace Date

/-- The date of a day. -/
def ofDay (day : Nat) : Date :=
  let year := Calendar.yearOfDay day
  let dayOfYear := day - Calendar.daysBeforeYear year
  let months := Calendar.wholeMonths (Calendar.monthLengths year) dayOfYear
  ⟨year, months.1 + 1, months.2 + 1⟩

/-- The number of the day of a date. -/
def toDay (d : Date) : Nat :=
  Calendar.daysBeforeYear d.year + Calendar.daysBeforeMonth d.year (d.month - 1) + (d.day - 1)

/-- Whether the calendar has this date: a month of the year and a day of the month. -/
def Valid (d : Date) : Prop :=
  1 ≤ d.month ∧ 1 ≤ d.day ∧
    ∃ length, (Calendar.monthLengths d.year)[d.month - 1]? = some length ∧ d.day ≤ length

/-- The date as `YYYY-MM-DD`, with more digits for a year above 9999. -/
def chars (d : Date) : List Char :=
  Decimal.padded 4 d.year ++ '-' :: Decimal.padded 2 d.month ++ '-' :: Decimal.padded 2 d.day

end Date

/-- A second of the calendar: a day, and the full hours, minutes and seconds of its time. -/
structure DateTime where
  date : Date
  hour : Nat
  minute : Nat
  second : Nat
  deriving DecidableEq

namespace DateTime

/-- The day on which seconds begin to be counted, 1 January 1970. -/
def epochDay : Nat := 719528

/-- The date and time of day so many seconds after the beginning of 1970. -/
def ofSeconds (seconds : Nat) : DateTime where
  date := Date.ofDay (epochDay + seconds / 86400)
  hour := seconds % 86400 / 3600
  minute := seconds % 3600 / 60
  second := seconds % 60

/-- The number of seconds from the beginning of 1970 to a date and time of day in it. -/
def toSeconds (t : DateTime) : Nat :=
  (t.date.toDay - epochDay) * 86400 + t.hour * 3600 + t.minute * 60 + t.second

/-- The date and time of day as `YYYY-MM-DD HH:MM:SS`. -/
def chars (t : DateTime) : List Char :=
  t.date.chars ++ ' ' :: Decimal.padded 2 t.hour ++ ':' :: Decimal.padded 2 t.minute
    ++ ':' :: Decimal.padded 2 t.second

/-- The text of a date and time of day. -/
def text (t : DateTime) : String := String.ofList t.chars

end DateTime

end WalletLedger
