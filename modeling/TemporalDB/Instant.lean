import TemporalDB.Calendar
import TemporalDB.Text.Number

/-!
# Instants

An instant is a moment of Universal Time to the nanosecond, within the years of the calendar. A
leap second is the second after a minute's fifty-ninth: it keeps the number of second 59 and has
a thousand million nanoseconds more, so that it comes after all of second 59 and before the next
minute. `Instant.text` writes an instant with the offset `+00:00`.
-/

namespace TemporalDB

open Text Calendar

def nanosPerSecond : Nat := 1000000000

def secondsPerDay : Int := 86400

/-- A moment of Universal Time: whole seconds since 1970-01-01 and nanoseconds on top. -/
structure Instant where
  seconds : Int
  nanos : Nat
  first_le : dayNumber ⟨minYear, 1, 1⟩ * secondsPerDay ≤ seconds
  lt_end : seconds < (dayNumber ⟨maxYear, 12, 31⟩ + 1) * secondsPerDay
  nanos_lt : nanos < 2 * nanosPerSecond
  leap_last : nanosPerSecond ≤ nanos → seconds % 60 = 59
deriving DecidableEq

namespace Instant

def ofParts? (seconds : Int) (nanos : Nat) : Option Instant :=
  if h : dayNumber ⟨minYear, 1, 1⟩ * secondsPerDay ≤ seconds ∧
      seconds < (dayNumber ⟨maxYear, 12, 31⟩ + 1) * secondsPerDay ∧
      nanos < 2 * nanosPerSecond ∧ (nanosPerSecond ≤ nanos → seconds % 60 = 59) then
    some ⟨seconds, nanos, h.1, h.2.1, h.2.2.1, h.2.2.2⟩
  else none

def first : Instant :=
  ⟨dayNumber ⟨minYear, 1, 1⟩ * secondsPerDay, 0, by decide, by decide, by decide, by decide⟩

/-- The last instant of the calendar, leap seconds apart. -/
def last : Instant :=
  ⟨dayNumber ⟨maxYear, 12, 31⟩ * secondsPerDay + 86399, 999999999,
    by decide, by decide, by decide, by decide⟩

/-- The instant that lies a number of microseconds after 1970-01-01, if the calendar has it. -/
def ofMicros? (micros : Int) : Option Instant :=
  ofParts? (micros / 1000000) ((micros % 1000000).toNat * 1000)

/-- The whole microseconds since 1970-01-01. -/
def micros (t : Instant) : Int := t.seconds * 1000000 + (t.nanos / 1000 : Nat)

/-- The place of an instant in time. Nanoseconds stay below two thousand million, so counting
that many to the second orders by second first and by nanosecond next. -/
def ticks (t : Instant) : Int := t.seconds * (2 * nanosPerSecond : Nat) + t.nanos

instance : LE Instant := ⟨fun a b => a.ticks ≤ b.ticks⟩
instance : LT Instant := ⟨fun a b => a.ticks < b.ticks⟩
instance (a b : Instant) : Decidable (a ≤ b) := inferInstanceAs (Decidable (a.ticks ≤ b.ticks))
instance (a b : Instant) : Decidable (a < b) := inferInstanceAs (Decidable (a.ticks < b.ticks))
instance : Ord Instant := ⟨fun a b => compare a.ticks b.ticks⟩

/-- The later of two instants. -/
instance : Max Instant := ⟨fun a b => if a ≤ b then b else a⟩

def date (t : Instant) : Date := dateOfDay (t.seconds / secondsPerDay)

/-- A year: four digits from 0 to 9999, else a sign and at least four digits. -/
def yearText (year : Int) : List Char :=
  if 0 ≤ year ∧ year ≤ 9999 then zeroPadded 4 year.natAbs
  else (if year < 0 then '-' else '+') :: zeroPadded 4 year.natAbs

/-- The fraction of a second: nothing for a whole second, else three, six or nine digits, the
fewest that are exact. -/
def fractionText (nanos : Nat) : List Char :=
  if nanos = 0 then []
  else if nanos % 1000000 = 0 then '.' :: zeroPadded 3 (nanos / 1000000)
  else if nanos % 1000 = 0 then '.' :: zeroPadded 6 (nanos / 1000)
  else '.' :: zeroPadded 9 nanos

/-- The date and the time of day, without an offset; a leap second is second 60. -/
def localText (t : Instant) : List Char :=
  let date := t.date
  let second := (t.seconds % secondsPerDay).toNat
  let leap := t.nanos / nanosPerSecond
  yearText date.year ++ ['-'] ++ zeroPadded 2 date.month ++ ['-'] ++ zeroPadded 2 date.day ++
    ['T'] ++ zeroPadded 2 (second / 3600) ++ [':'] ++ zeroPadded 2 (second / 60 % 60) ++ [':'] ++
    zeroPadded 2 (second % 60 + leap) ++ fractionText (t.nanos % nanosPerSecond)

def text (t : Instant) : String := String.ofList (t.localText ++ ['+', '0', '0', ':', '0', '0'])

/-- The text of an instant, with the letter Z for the offset. -/
def zuluText (t : Instant) : String := String.ofList (t.localText ++ ['Z'])

end Instant

end TemporalDB
