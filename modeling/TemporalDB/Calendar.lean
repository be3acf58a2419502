/-!
# The proleptic Gregorian calendar

Days are counted from 1970-01-01, years may be zero or negative, and the leap year rule holds for
all of them. `dayNumber` turns a date into its day, `dateOfDay` a day into its date.
-/

namespace TemporalDB.Calendar

structure Date where
  year : Int
  month : Nat
  day : Nat
deriving DecidableEq, Repr

def isLeap (year : Int) : Bool := year % 4 = 0 && (year % 100 ≠ 0 || year % 400 = 0)

def monthLengths (year : Int) : List Nat :=
  [31, if isLeap year then 29 else 28, 31, 30, 31, 30, 31, 31, 30, 31, 30, 31]

def minYear : Int := -262143

def maxYear : Int := 262142

/-- Whether the year is one of the calendar and the month and the day are there in it. -/
def Date.isReal (d : Date) : Bool :=
  minYear ≤ d.year && d.year ≤ maxYear && 1 ≤ d.month && 1 ≤ d.day &&
    match (monthLengths d.year)[d.month - 1]? with
    | some n => d.day ≤ n
    | none => false

/-- The days from the first of January of year 1 to the first of January of `year`. -/
def daysBeforeYear (year : Int) : Int :=
  let y := year - 1
  365 * y + y / 4 - y / 100 + y / 400

/-- The day on which day 0, 1970-01-01, falls when days are counted from 0001-01-01. -/
def epochDay : Int := 719162

/-- The day of a date, counted from 1970-01-01. -/
def dayNumber (d : Date) : Int :=
  let daysBeforeMonth : Nat := ((monthLengths d.year).take (d.month - 1)).foldl (· + ·) 0
  daysBeforeYear d.year + daysBeforeMonth + (d.day - 1 : Nat) - epochDay

/-- The year in which a day counted from 0001-01-01 lies. Four hundred years have 146097 days;
the year that their mean length gives is right or one too small. -/
def yearOfDay (day : Int) : Int :=
  let guess := 400 * day / 146097 + 1
  if daysBeforeYear (guess + 1) ≤ day then guess + 1 else guess

/-- The month and the day of the month, from the lengths of the months that are left, the number
of the first of them and the days that have passed since it began. -/
def monthAndDay : List Nat → Nat → Nat → Nat × Nat
  | [], month, passed => (month, passed + 1)
  | n :: rest, month, passed =>
    if passed < n then (month, passed + 1) else monthAndDay rest (month + 1) (passed - n)

def dateOfDay (day : Int) : Date :=
  let absolute := day + epochDay
  let year := yearOfDay absolute
  let (month, dayOfMonth) :=
    monthAndDay (monthLengths year) 1 (absolute - daysBeforeYear year).toNat
  ⟨year, month, dayOfMonth⟩

end TemporalDB.Calendar
