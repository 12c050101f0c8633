import RequestRules.Number.Numeral

/-!
# Dates

The Gregorian calendar, extended to all years: month lengths, the count of days since the day before 1 January of
year 1, and ISO weeks, of which the first has the first Thursday of its year.
-/

namespace RequestRules

namespace Calendar

def minYear : Nat := 1
def maxYear : Nat := 9999

def isLeap (year : Nat) : Bool := year % 4 = 0 && (year % 100 ≠ 0 || year % 400 = 0)

def daysInMonth (year month : Nat) : Nat :=
  if month = 2 then if isLeap year then 29 else 28
  else if month = 4 ∨ month = 6 ∨ month = 9 ∨ month = 11 then 30
  else 31

def daysBeforeMonth (year month : Nat) : Nat :=
  ((List.range month).drop 1).foldl (fun n m => n + daysInMonth year m) 0

/-- The days before 1 January of `year`, counted from year 1. -/
def daysBeforeYear (year : Nat) : Nat :=
  let y := year - 1
  y * 365 + y / 4 - y / 100 + y / 400

/-- The day count of a date; 1 January of year 1 is day 1. -/
def ordinal (year month day : Nat) : Nat := daysBeforeYear year + daysBeforeMonth year month + day

/-- The day of the week, zero for Monday. -/
def weekday (year month day : Nat) : Nat := (ordinal year month day + 6) % 7

/-- Year, month and day of the `n`th day after 1 January of year 1. -/
def ofDayIndex (n : Nat) : Nat × Nat × Nat :=
  let n400 := n / 146097
  let n := n % 146097
  let n100 := n / 36524
  let n' := n % 36524
  let n4 := n' / 1461
  let n' := n' % 1461
  let n1 := n' / 365
  let year := n400 * 400 + n100 * 100 + n4 * 4 + n1 + 1
  if n1 = 4 ∨ n100 = 4 then (year - 1, 12, 31)
  else
    let n' := n' % 365
    let months := [12, 11, 10, 9, 8, 7, 6, 5, 4, 3, 2]
    let month := (months.find? fun m => daysBeforeMonth year m ≤ n').getD 1
    (year, month, n' - daysBeforeMonth year month + 1)

/-- The number of ISO weeks of a year: 53 if it begins on a Thursday, or on a Wednesday as a leap year. -/
def isoWeeks (year : Nat) : Nat :=
  let first := weekday year 1 1
  if first = 3 ∨ (first = 2 ∧ isLeap year) then 53 else 52

def firstMonday (year : Nat) : Int :=
  let first := weekday year 1 1
  let monday : Int := ordinal year 1 1 - first
  if 3 < first then monday + 7 else monday

end Calendar

/-- A day; reading makes sure that it exists. -/
structure Date where
  year : Nat
  month : Nat
  day : Nat
  deriving DecidableEq, Repr

inductive CalendarError
  | year (n : Int)
  | month
  | day
  | hour
  | minute
  | second
  /-- the distance from UTC, in microseconds, of a day or more -/
  | offset (micros : Int)
  deriving DecidableEq, Repr

namespace Date

def make (year month day : Nat) : Except CalendarError Date :=
  if year < Calendar.minYear ∨ Calendar.maxYear < year then .error (.year year)
  else if month < 1 ∨ 12 < month then .error .month
  else if day < 1 ∨ Calendar.daysInMonth year month < day then .error .day
  else .ok ⟨year, month, day⟩

def ordinal (d : Date) : Nat := Calendar.ordinal d.year d.month d.day

def render (d : Date) : Text :=
  Numeral.padded 4 d.year ++ .char '-' :: (Numeral.padded 2 d.month ++ .char '-' :: Numeral.padded 2 d.day)

end Date

end RequestRules
