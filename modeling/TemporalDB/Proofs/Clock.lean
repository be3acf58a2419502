import TemporalDB.Clock
import TemporalDB.Proofs.Instant.Order

/-!
# How a clock goes

A clock's count is kept within 64 bits twice over when it moves: the length that it is to move by is
cut to what 64 bits hold, and so is the sum. That is as good as cutting the sum once, unless the
length does not fit and goes against the sign of the count (`count_advance_iff`); then the clock
stops short of the end of its range. The instant that it shows never goes the other way.
-/

namespace TemporalDB

/-- The nearest integer of those that 64 bits hold. -/
def clamp64 (n : Int) : Int := max Int64.minValue.toInt (min n Int64.maxValue.toInt)

theorem bounds64 : Int64.minValue.toInt = -9223372036854775808 ∧
    Int64.maxValue.toInt = 9223372036854775807 := by decide

theorem toInt_clampInt64 (n : Int) : (clampInt64 n).toInt = clamp64 n := by
  have ends := bounds64
  unfold clampInt64 clamp64
  split_ifs with low high
  · omega
  · omega
  · rw [Int64.toInt_ofInt_of_le (by omega) (by omega)]
    omega

namespace Instant

open Calendar

variable {n : Int} {t : Instant}

/-- The instants that lie whole microseconds after 1970-01-01, leap seconds apart. -/
theorem ofMicros?_eq_some_iff :
    ofMicros? n = some t ↔ t.micros = n ∧ t.nanos % 1000 = 0 ∧ t.nanos < nanosPerSecond := by
  unfold ofMicros? ofParts? micros nanosPerSecond
  constructor
  · intro h
    split_ifs at h
    cases h
    dsimp only
    omega
  · rintro ⟨rfl, whole, plain⟩
    obtain ⟨seconds, nanos, first, last, _, _⟩ := t
    dsimp only at whole plain ⊢
    have parts : (seconds * 1000000 + (nanos / 1000 : Nat)) / 1000000 = seconds ∧
        ((seconds * 1000000 + (nanos / 1000 : Nat)) % 1000000).toNat * 1000 = nanos := by
      omega
    simp only [parts.1, parts.2]
    rw [dif_pos ⟨first, last, by omega, by omega⟩]

/-- The calendar has every count from that of its first instant to that of its last. -/
theorem ofMicros?_eq_none_iff : ofMicros? n = none ↔ n < first.micros ∨ last.micros < n := by
  have least : dayNumber ⟨minYear, 1, 1⟩ * secondsPerDay = first.seconds := rfl
  have greatest : (dayNumber ⟨maxYear, 12, 31⟩ + 1) * secondsPerDay = last.seconds + 1 := by decide
  have ends : first.nanos = 0 ∧ last.nanos = 999999999 ∧ first.seconds ≤ last.seconds := by decide
  have scale : nanosPerSecond = 1000000000 := rfl
  unfold ofMicros? ofParts? micros
  constructor
  · intro h
    split_ifs at h with real
    omega
  · intro outside
    rw [dif_neg]
    omega

theorem first_le_self (t : Instant) : first ≤ t := by
  have least : dayNumber ⟨minYear, 1, 1⟩ * secondsPerDay = first.seconds := rfl
  have start : first.nanos = 0 := rfl
  have bound := t.first_le
  change first.ticks ≤ t.ticks
  unfold ticks nanosPerSecond
  omega

/-- No instant comes after the last one but the leap second that may follow it. -/
theorem le_last (plain : t.nanos < nanosPerSecond) : t ≤ last := by
  have greatest : (dayNumber ⟨maxYear, 12, 31⟩ + 1) * secondsPerDay = last.seconds + 1 := by decide
  have stop : last.nanos = 999999999 := rfl
  have bound := t.lt_end
  change t.ticks ≤ last.ticks
  unfold ticks nanosPerSecond at *
  omega

theorem clamp64_micros (t : Instant) : clamp64 t.micros = t.micros := by
  have low := t.first_le
  have high := t.lt_end
  have least : -2 ^ 43 ≤ dayNumber ⟨minYear, 1, 1⟩ * secondsPerDay := by decide
  have greatest : (dayNumber ⟨maxYear, 12, 31⟩ + 1) * secondsPerDay ≤ 2 ^ 43 := by decide
  have ends := bounds64
  have nanos := t.nanos_lt
  unfold clamp64 micros nanosPerSecond at *
  omega

end Instant

namespace Clock

variable {c c' : Clock} {d : Duration}

/-- The microseconds since 1970-01-01 that a clock counts. -/
def count (c : Clock) : Int := c.micros.toInt

/-- A length that no count of 64 bits reaches is to be moved by, against the sign of the count. -/
def Overshoots (c : Clock) (d : Duration) : Prop :=
  d.micros < Int64.minValue.toInt ∧ 0 < c.count ∨ Int64.maxValue.toInt < d.micros ∧ c.count < 0

theorem clamp64_count (c : Clock) : clamp64 c.count = c.count := by
  have low := Int64.minValue_le_toInt c.micros
  have high := Int64.toInt_le c.micros
  unfold clamp64 count
  omega

theorem count_showing (t : Instant) : (showing t).count = t.micros :=
  (toInt_clampInt64 _).trans t.clamp64_micros

theorem count_advance (c : Clock) (d : Duration) :
    (c.advance d).count = clamp64 (c.count + clamp64 d.micros) := by
  rw [← toInt_clampInt64 d.micros]
  exact toInt_clampInt64 _

/-- **The count after a move is the sum, cut once**, unless the length overshoots. -/
theorem count_advance_iff :
    (c.advance d).count = clamp64 (c.count + d.micros) ↔ ¬ c.Overshoots d := by
  have ends := bounds64
  have inside := c.clamp64_count
  rw [count_advance]
  unfold Overshoots
  unfold clamp64 at *
  omega

/-! ## What the clock shows -/

theorem now_eq_of_inside (low : Instant.first.micros ≤ c.count)
    (high : c.count ≤ Instant.last.micros) : Instant.ofMicros? c.count = some c.now := by
  obtain ⟨t, ht⟩ : ∃ t, Instant.ofMicros? c.count = some t := by
    rw [← Option.ne_none_iff_exists', ne_eq, Instant.ofMicros?_eq_none_iff]
    omega
  unfold count at ht ⊢
  unfold now
  rw [ht]
  rfl

theorem now_eq_first (low : c.count < Instant.first.micros) : c.now = .first := by
  have outside := Instant.ofMicros?_eq_none_iff.mpr (Or.inl low)
  have negative : c.count < 0 := Int.lt_trans low (by decide)
  unfold count at outside negative
  unfold now
  rw [outside, if_pos negative]
  rfl

theorem now_eq_last (high : Instant.last.micros < c.count) : c.now = .last := by
  have outside := Instant.ofMicros?_eq_none_iff.mpr (Or.inr high)
  have positive : ¬ c.count < 0 := Int.not_lt.mpr (Int.le_trans (by decide) (Int.le_of_lt high))
  unfold count at outside positive
  unfold now
  rw [outside, if_neg positive]
  rfl

/-- **The more a clock counts, the later is what it shows.** -/
theorem now_le_now (h : c.count ≤ c'.count) : c.now ≤ c'.now := by
  by_cases low : c.count < Instant.first.micros
  · rw [now_eq_first low]
    exact Instant.first_le_self _
  by_cases high : Instant.last.micros < c'.count
  · rw [now_eq_last high]
    by_cases high' : Instant.last.micros < c.count
    · rw [now_eq_last high']
    · have here := now_eq_of_inside (Int.not_lt.mp low) (Int.not_lt.mp high')
      exact Instant.le_last (Instant.ofMicros?_eq_some_iff.mp here).2.2
  · have here := now_eq_of_inside (c := c) (by omega) (by omega)
    have there := now_eq_of_inside (c := c') (by omega) (by omega)
    obtain ⟨counted, whole, plain⟩ := Instant.ofMicros?_eq_some_iff.mp here
    obtain ⟨counted', whole', plain'⟩ := Instant.ofMicros?_eq_some_iff.mp there
    change c.now.ticks ≤ c'.now.ticks
    unfold Instant.micros Instant.ticks nanosPerSecond at *
    omega

theorem count_le_count_advance (h : 0 ≤ d.nanos) : c.count ≤ (c.advance d).count := by
  have forward : 0 ≤ d.micros := Int.tdiv_nonneg h (by decide)
  have inside := c.clamp64_count
  have ends := bounds64
  rw [count_advance]
  unfold clamp64 at *
  omega

theorem count_advance_le_count (h : d.nanos ≤ 0) : (c.advance d).count ≤ c.count := by
  have backward : d.micros ≤ 0 := by
    have reversed := Int.tdiv_nonneg (Int.neg_nonneg.mpr h) (by decide : (0 : Int) ≤ 1000)
    rw [Int.neg_tdiv] at reversed
    exact Int.neg_nonneg.mp reversed
  have inside := c.clamp64_count
  have ends := bounds64
  rw [count_advance]
  unfold clamp64 at *
  omega

/-! ## Runs -/

inductive Move where
  | set (t : Instant)
  | advance (d : Duration)

def move (c : Clock) : Move → Clock
  | .set t => showing t
  | .advance d => c.advance d

def run (c : Clock) (moves : List Move) : Clock := moves.foldl move c

/-- The count that a move is to leave: that of the instant, or the sum, cut once to 64 bits. -/
def Move.target (n : Int) : Move → Int
  | set t => t.micros
  | advance d => clamp64 (n + d.micros)

/-- None of the moves of a run overshoots. -/
def Keeps (c : Clock) : List Move → Prop
  | [] => True
  | .set t :: rest => (showing t).Keeps rest
  | .advance d :: rest => ¬ c.Overshoots d ∧ (c.advance d).Keeps rest

/-- **Moves leave the count that they are to leave**, as long as none overshoots. -/
theorem count_run {moves : List Move} (keeps : c.Keeps moves) :
    (c.run moves).count = moves.foldl Move.target c.count := by
  induction moves generalizing c with
  | nil => rfl
  | cons m rest ih =>
      cases m with
      | set t =>
          have later := ih keeps
          rwa [count_showing] at later
      | advance d =>
          have later := ih keeps.2
          rwa [count_advance_iff.mpr keeps.1] at later

/-- **A clock saturates.** From every start and after every run of moves, moving by a length leaves
the sum, cut once to 64 bits, just if the length does not overshoot; if it does, the clock counts on
from where it was by the longest length that 64 bits hold, and stays short of the end. The count of
a run without such lengths is the one that its moves are to leave. What the clock shows is its count
as an instant, or the end of the calendar that the count lies beyond, and it never goes the other
way than the length. -/
theorem advance_saturates (start : Instant) (moves : List Move) :
    let c := (showing start).run moves
    ((showing start).Keeps moves → c.count = moves.foldl Move.target start.micros) ∧
      (∀ d, ((c.advance d).count = clamp64 (c.count + d.micros) ↔ ¬ c.Overshoots d) ∧
        (c.Overshoots d → (c.advance d).count = c.count + clamp64 d.micros)) ∧
      (Instant.first.micros ≤ c.count ∧ c.count ≤ Instant.last.micros →
        c.now.micros = c.count ∧ c.now.nanos % 1000 = 0 ∧ c.now.nanos < nanosPerSecond) ∧
      (c.count < Instant.first.micros → c.now = .first) ∧
      (Instant.last.micros < c.count → c.now = .last) ∧
      ∀ d, (0 ≤ d.nanos → c.now ≤ (c.advance d).now) ∧
        (d.nanos ≤ 0 → (c.advance d).now ≤ c.now) := by
  intro c
  refine ⟨?_, ?_, ?_, now_eq_first, now_eq_last, ?_⟩
  · intro keeps
    rw [← count_showing]
    exact count_run keeps
  · intro d
    refine ⟨count_advance_iff, ?_⟩
    intro overshoots
    have inside := c.clamp64_count
    have ends := bounds64
    rw [count_advance]
    unfold Overshoots at overshoots
    unfold clamp64 at *
    omega
  · rintro ⟨low, high⟩
    exact Instant.ofMicros?_eq_some_iff.mp (now_eq_of_inside low high)
  · intro d
    exact ⟨fun forward => now_le_now (count_le_count_advance forward),
      fun backward => now_le_now (count_advance_le_count backward)⟩

def june : Instant :=
  ⟨1717200000, 0, by decide, by decide, Instant.first.nanos_lt, by decide⟩

/-- **A clock that is moved back by the greatest length does not come to the end of its range.** It
stops short by all that it counted before, so moving it forth by as much as 64 bits hold brings it
back to where it was, less a microsecond, and not to the last microsecond of 1969. -/
theorem advance_stops_short :
    let c := (showing june).advance .longestBack
    c.count ≠ clamp64 ((showing june).count + Duration.longestBack.micros) ∧
      c.count = Int64.minValue.toInt + 1717200000000000 ∧
      (c.advance ⟨Int64.maxValue.toInt * 1000⟩).now.text = "2024-05-31T23:59:59.999999+00:00" := by
  decide +kernel

end Clock

end TemporalDB
