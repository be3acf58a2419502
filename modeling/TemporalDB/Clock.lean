import TemporalDB.Instant

/-!
# The clock

A clock that moves only when it is told to. It counts whole microseconds in 64 bits; moving it
stops at the ends of that range, and a count that the calendar does not reach reads as the
calendar's first or last instant.
-/

namespace TemporalDB

structure Duration where
  nanos : Int
deriving DecidableEq

namespace Duration

def ofParts (seconds : Int) (nanos : Nat) : Duration := ⟨seconds * 1000000000 + nanos⟩

/-- The greatest length there is: a 64-bit count of milliseconds. -/
def longest : Duration := ⟨Int64.maxValue.toInt * 1000000⟩

def longestBack : Duration := ⟨-longest.nanos⟩

/-- The whole microseconds of a length, cut off toward zero. -/
def micros (d : Duration) : Int := d.nanos.tdiv 1000

end Duration

def clampInt64 (n : Int) : Int64 :=
  if n < Int64.minValue.toInt then Int64.minValue
  else if Int64.maxValue.toInt < n then Int64.maxValue
  else Int64.ofInt n

/-- A clock that moves only when it is told to. -/
structure Clock where
  micros : Int64
deriving DecidableEq

namespace Clock

/-- The clock that shows an instant, less what is below a microsecond. -/
def showing (t : Instant) : Clock := ⟨clampInt64 t.micros⟩

def advance (c : Clock) (d : Duration) : Clock :=
  ⟨clampInt64 (c.micros.toInt + (clampInt64 d.micros).toInt)⟩

def now (c : Clock) : Instant :=
  (Instant.ofMicros? c.micros.toInt).getD
    (if c.micros.toInt < 0 then Instant.first else Instant.last)

end Clock

end TemporalDB
