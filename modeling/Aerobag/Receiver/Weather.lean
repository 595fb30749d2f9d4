import Mathlib.Data.List.MinMax
import Mathlib.Data.List.ReduceOption
import Mathlib.Algebra.GroupWithZero.Nat

/-!
# Dates of receiver reports (`app-core/src/receiver/weather.rs`)

A report has the day of the month and the time, and the receiver looks for the month. The calendar
is that of the date library.
-/

namespace Aerobag.Receiver

def minYear : Int := -262143

def maxYear : Int := 262142

def daysInMonth (year : Int) (month : Nat) : Nat :=
  if month = 2 then if year % 4 = 0 ∧ (year % 100 ≠ 0 ∨ year % 400 = 0) then 29 else 28
  else if month ∈ [4, 6, 9, 11] then 30
  else 31

/-- The days before a month, from the year 0 on. -/
def daysBefore (year : Int) (month : Nat) : Int :=
  365 * year + (year + 3) / 4 - (year + 99) / 100 + (year + 399) / 400 +
    ((List.range month).tail.map (daysInMonth year)).sum

structure NaiveDate where
  year : Int
  month : Nat
  day : Nat
  year_mem : minYear ≤ year ∧ year ≤ maxYear
  month_mem : 1 ≤ month ∧ month ≤ 12
  day_mem : 1 ≤ day ∧ day ≤ daysInMonth year month
  deriving DecidableEq

namespace NaiveDate

def fromYmdOpt (year : Int) (month day : Nat) : Option NaiveDate :=
  if h : (minYear ≤ year ∧ year ≤ maxYear) ∧ (1 ≤ month ∧ month ≤ 12) ∧ 1 ≤ day ∧
      day ≤ daysInMonth year month then
    some ⟨year, month, day, h.1, h.2.1, h.2.2⟩
  else none

/-- `checked_sub_months` of one month, for the first day of a month. -/
def previousMonth (self : NaiveDate) : Option NaiveDate :=
  if self.month = 1 then fromYmdOpt (self.year - 1) 12 1 else fromYmdOpt self.year (self.month - 1) 1

/-- `checked_add_months` of one month, for the first day of a month. -/
def nextMonth (self : NaiveDate) : Option NaiveDate :=
  if self.month = 12 then fromYmdOpt (self.year + 1) 1 1 else fromYmdOpt self.year (self.month + 1) 1

def days (self : NaiveDate) : Int := daysBefore self.year self.month + self.day

end NaiveDate

/-- A date and the milliseconds of its day. -/
structure DateTime where
  date : NaiveDate
  millis : Nat
  millis_lt : millis < 86400000
  deriving DecidableEq

def DateTime.timestampMillis (self : DateTime) : Int :=
  86400000 * (self.date.days - (daysBefore 1970 1 + 1)) + self.millis

structure PartialUtc where
  day : Nat
  hour : Nat
  minute : Nat

namespace PartialUtc

/-- `and_hms_opt` and `and_utc`. -/
def onDate (self : PartialUtc) (date : NaiveDate) : Option DateTime :=
  if h : self.hour < 24 ∧ self.minute < 60 then
    some ⟨date, (self.hour * 60 + self.minute) * 60000, by omega⟩
  else none

def resolveNearest (self : PartialUtc) (anchor : DateTime) : Option DateTime := do
  let month ← NaiveDate.fromYmdOpt anchor.date.year anchor.date.month 1
  let months := [month.previousMonth, some month, month.nextMonth].reduceOption
  let dates := months.filterMap fun month => NaiveDate.fromYmdOpt month.year month.month self.day
  (dates.filterMap self.onDate).argmin fun date =>
    (anchor.timestampMillis - date.timestampMillis).natAbs

end PartialUtc

end Aerobag.Receiver
