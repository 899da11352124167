import Mathlib.Algebra.Group.Nat.Defs
import SandboxTEE.Lib.Blocks

/-! # Calendar dates of timestamps (`time_convert.c`)

Whole days are taken off year by year and then month by month.  The clock is to show the time
nine hours ahead of UTC: nine is added to the hour, and nothing is carried to the day
(`utcTimestampToDate_valid_iff`).

The table of month lengths is a global that each call writes the length of February to.
-/

namespace SandboxTEE.Stdlib

open SandboxTEE.Lib

/-- `timestamp_t` -/
abbrev Timestamp := UInt32

/-- `datedata_t` -/
structure DateData where
  year : Nat
  month : Nat
  day : Nat

/-- `timedata_t`.  The largest hour, 32, fits its byte. -/
structure TimeData where
  hour : Nat
  minute : Nat
  second : Nat

def oneDay : Nat := 1 * 60 * 60 * 24

/-- `month_days` as it is initialised. -/
def initialMonthDays : List Nat := [0, 31, 28, 31, 30, 31, 30, 31, 31, 30, 31, 30, 31]

/-- 0 for a leap year, -1 for any other. -/
def isLeapYear (year : Nat) : Int :=
  if (year % 4 = 0 ∧ year % 100 ≠ 0) ∨ year % 400 = 0 then 0 else -1

/-- `days_in_year` -/
def yearDays (year : Nat) : Nat := if isLeapYear year ≠ 0 then 365 else 366

def timeOfDay (secondInDay : Nat) : TimeData where
  second := secondInDay % 60
  minute := secondInDay / 60 % 60
  hour := secondInDay / 60 / 60 % 24 + 9

/-- The loop over the years from 1970 to 2200. -/
def yearLoop (days : Nat) : Nat × Nat := locate yearDays 231 1970 days

/-- `month_days[2] = …` -/
def setFebruary (monthDays : List Nat) (year : Nat) : List Nat :=
  monthDays.set 2 (if isLeapYear year = 0 then 29 else 28)

/-- The loop over the months from 1 to 12. -/
def monthLoop (monthDays : List Nat) (days : Nat) : Nat × Nat :=
  locate (fun month => monthDays.getD month 0) 12 1 days

/-- The date, the time and `month_days` after the call. -/
def utcTimestampToDate (monthDays : List Nat) (timestamp : Timestamp) :
    DateData × TimeData × List Nat :=
  let (year, days) := yearLoop (timestamp.toNat / oneDay)
  let monthDays := setFebruary monthDays year
  let (month, days) := monthLoop monthDays days
  (⟨year, month, days + 1⟩, timeOfDay (timestamp.toNat % oneDay), monthDays)

/-- `month_days` after calls with the timestamps. -/
def monthDaysAfter (earlier : List Timestamp) : List Nat :=
  earlier.foldl (fun monthDays timestamp => (utcTimestampToDate monthDays timestamp).2.2)
    initialMonthDays

/-! ## The civil calendar -/

/-- A century is a leap year only if 400 divides it. -/
def LeapYear (year : Nat) : Prop := 4 ∣ year ∧ (100 ∣ year → 400 ∣ year)

instance (year : Nat) : Decidable (LeapYear year) := by unfold LeapYear; infer_instance

def daysInMonth (year month : Nat) : Nat :=
  if month = 2 then if LeapYear year then 29 else 28
  else if month = 4 ∨ month = 6 ∨ month = 9 ∨ month = 11 then 30
  else 31

def daysInYear (year : Nat) : Nat := spanOf (daysInMonth year) 1 12

/-- A date of the civil calendar from 1970 on, and a time of the day. -/
structure Civil (date : DateData) (time : TimeData) : Prop where
  year : 1970 ≤ date.year
  month : 1 ≤ date.month ∧ date.month ≤ 12
  day : 1 ≤ date.day ∧ date.day ≤ daysInMonth date.year date.month
  hour : time.hour < 24
  minute : time.minute < 60
  second : time.second < 60

def daysFromEpoch (date : DateData) : Nat :=
  spanOf daysInYear 1970 (date.year - 1970) +
    spanOf (daysInMonth date.year) 1 (date.month - 1) + (date.day - 1)

def secondsFromEpoch (date : DateData) (time : TimeData) : Nat :=
  daysFromEpoch date * 86400 + time.hour * 3600 + time.minute * 60 + time.second

/-! ## The two calendars agree -/

theorem isLeapYear_eq_zero (year : Nat) : isLeapYear year = 0 ↔ LeapYear year := by
  unfold isLeapYear LeapYear
  split <;> omega

theorem yearDays_eq (year : Nat) : yearDays year = daysInYear year := by
  by_cases leap : LeapYear year
  · simp [yearDays, daysInYear, spanOf, daysInMonth, (isLeapYear_eq_zero year).mpr leap, leap]
  · have nonzero : isLeapYear year ≠ 0 := fun zero => leap ((isLeapYear_eq_zero year).mp zero)
    simp [yearDays, daysInYear, spanOf, daysInMonth, nonzero, leap]

variable (earlier : List Timestamp)

theorem setFebruary_monthDaysAfter (year : Nat) :
    setFebruary (monthDaysAfter earlier) year = setFebruary initialMonthDays year := by
  have kept : ∀ monthDays, setFebruary monthDays year = setFebruary initialMonthDays year →
      setFebruary (earlier.foldl
        (fun monthDays timestamp => (utcTimestampToDate monthDays timestamp).2.2) monthDays) year =
        setFebruary initialMonthDays year := by
    induction earlier with
    | nil => exact fun _ same => same
    | cons timestamp earlier ih =>
      intro monthDays same
      refine ih _ ?_
      simpa [utcTimestampToDate, setFebruary] using same
  exact kept initialMonthDays rfl

/-- In a table with the length of this year's February stand the lengths of its months. -/
theorem setFebruary_getD (year : Nat) {month : Nat} (low : 1 ≤ month) (high : month < 1 + 12) :
    (setFebruary initialMonthDays year).getD month 0 = daysInMonth year month := by
  simp only [setFebruary, isLeapYear_eq_zero, daysInMonth]
  by_cases leap : LeapYear year
  · rw [if_pos leap]
    exact (by decide : ∀ month < 13, 1 ≤ month → (initialMonthDays.set 2 29).getD month 0 =
      if month = 2 then 29
      else if month = 4 ∨ month = 6 ∨ month = 9 ∨ month = 11 then 30 else 31) month high low
  · rw [if_neg leap]
    exact (by decide : ∀ month < 13, 1 ≤ month → (initialMonthDays.set 2 28).getD month 0 =
      if month = 2 then 28
      else if month = 4 ∨ month = 6 ∨ month = 9 ∨ month = 11 then 30 else 31) month high low

/-! ## What a call yields -/

/-- The years of the loop are more than a timestamp can reach. -/
theorem days_lt_years (timestamp : Timestamp) :
    timestamp.toNat / oneDay < spanOf yearDays 1970 231 := by
  have years : spanOf yearDays 1970 231 = 84371 := by decide +kernel
  have bound := timestamp.toNat_lt
  rw [years, oneDay]
  omega

/-- The date is one of the calendar, as many days from the epoch as the timestamp has. -/
theorem utcTimestampToDate_date (timestamp : Timestamp) :
    ∃ year month day, 1970 ≤ year ∧ 1 ≤ month ∧ month ≤ 12 ∧ day < daysInMonth year month ∧
      daysFromEpoch ⟨year, month, day + 1⟩ = timestamp.toNat / oneDay ∧
      (utcTimestampToDate (monthDaysAfter earlier) timestamp).1 = ⟨year, month, day + 1⟩ := by
  obtain ⟨years, -, year, inYears, inYear⟩ := locate_spec (days_lt_years timestamp)
  generalize found : locate yearDays 231 1970 (timestamp.toNat / oneDay) = y at year inYears inYear
  obtain ⟨_, days⟩ := y
  subst year
  rw [yearDays_eq, daysInYear] at inYear
  obtain ⟨months, bound, month, inMonths, inMonth⟩ := locate_spec inYear
  have table : monthLoop (setFebruary (monthDaysAfter earlier) (1970 + years)) days =
      locate (daysInMonth (1970 + years)) 12 1 days := by
    rw [setFebruary_monthDaysAfter, monthLoop]
    exact locate_congr fun i low high => setFebruary_getD (1970 + years) low high
  generalize foundMonth : locate (daysInMonth (1970 + years)) 12 1 days = m
    at month inMonths inMonth table
  obtain ⟨_, day⟩ := m
  subst month
  refine ⟨1970 + years, 1 + months, day, by omega, by omega, by omega, inMonth, ?_, ?_⟩
  · rw [spanOf_congr fun year _ _ => yearDays_eq year] at inYears
    simp only [daysFromEpoch, Nat.add_sub_cancel_left, Nat.add_sub_cancel]
    omega
  · simp only [utcTimestampToDate, yearLoop, found, table]

theorem utcTimestampToDate_time (timestamp : Timestamp) :
    (utcTimestampToDate (monthDaysAfter earlier) timestamp).2.1 =
      timeOfDay (timestamp.toNat % oneDay) := rfl

/-- For every timestamp, after whatever earlier calls: the call yields a civil date and time as far
    from the epoch as the timestamp and nine hours, exactly when the UTC hour is below 15. -/
theorem utcTimestampToDate_valid_iff (earlier : List Timestamp) (timestamp : Timestamp) :
    let result := utcTimestampToDate (monthDaysAfter earlier) timestamp
    (Civil result.1 result.2.1 ∧
      secondsFromEpoch result.1 result.2.1 = timestamp.toNat + 9 * 3600) ↔
      timestamp.toNat % 86400 / 3600 < 15 := by
  intro result
  obtain ⟨year, month, day, fromEpoch, low, high, inMonth, days, date⟩ :=
    utcTimestampToDate_date earlier timestamp
  have time := utcTimestampToDate_time earlier timestamp
  simp only [result, date, time]
  constructor
  · rintro ⟨civil, -⟩
    have hour := civil.hour
    simp only [timeOfDay, oneDay] at hour
    omega
  · intro early
    refine ⟨⟨fromEpoch, ⟨low, high⟩, ⟨Nat.succ_pos day, inMonth⟩, ?_, ?_, ?_⟩, ?_⟩
    · simp only [timeOfDay, oneDay]
      omega
    · exact Nat.mod_lt _ (by decide)
    · exact Nat.mod_lt _ (by decide)
    · rw [secondsFromEpoch, days]
      simp only [timeOfDay, oneDay]
      omega

/-- Three in the afternoon of the first day. -/
theorem utcTimestampToDate_hour24 : ¬ ∀ (earlier : List Timestamp) (timestamp : Timestamp),
    let result := utcTimestampToDate (monthDaysAfter earlier) timestamp
    Civil result.1 result.2.1 ∧
      secondsFromEpoch result.1 result.2.1 = timestamp.toNat + 9 * 3600 := by
  intro every
  have hour := (every [] 54000).1.hour
  revert hour
  decide

end SandboxTEE.Stdlib
