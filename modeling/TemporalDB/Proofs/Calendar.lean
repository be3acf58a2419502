import Mathlib.Algebra.GroupWithZero.Nat
import Mathlib.Order.Monotone.Basic
import TemporalDB.Calendar

/-!
# Days and their dates

Every day has a date, and the day of that date is the day again. The date of a day between the first
and the last one of the calendar is a real one.
-/

namespace TemporalDB.Calendar

variable {day year : Int} {lengths : List Nat} {month passed : Nat}

/-! ## Years -/

theorem daysBeforeYear_succ :
    daysBeforeYear (year + 1) = daysBeforeYear year + (monthLengths year).sum := by
  unfold daysBeforeYear monthLengths
  simp only [List.sum_cons, List.sum_nil]
  split
  · next leap =>
      simp only [isLeap, Bool.and_eq_true, Bool.or_eq_true, decide_eq_true_eq] at leap
      omega
  · next common =>
      simp only [isLeap, Bool.and_eq_true, Bool.or_eq_true, decide_eq_true_eq] at common
      omega

theorem yearOfDay_spec (day : Int) :
    daysBeforeYear (yearOfDay day) ≤ day ∧ day < daysBeforeYear (yearOfDay day + 1) := by
  -- the mean length of a year misses the days of whole years by less than one day
  have guess : daysBeforeYear (400 * day / 146097 + 1) ≤ day ∧
      day < daysBeforeYear (400 * day / 146097 + 1 + 1 + 1) := by
    unfold daysBeforeYear
    dsimp only
    omega
  unfold yearOfDay
  dsimp only
  split
  · next later => exact ⟨later, guess.2⟩
  · next earlier => exact ⟨guess.1, Int.not_le.mp earlier⟩

theorem daysBeforeYear_le {earlier later : Int} (h : earlier ≤ later) :
    daysBeforeYear earlier ≤ daysBeforeYear later := by
  refine monotone_int_of_le_succ (fun year => ?_) h
  rw [daysBeforeYear_succ]
  omega

theorem yearOfDay_bounds (lower : daysBeforeYear minYear ≤ day)
    (upper : day < daysBeforeYear (maxYear + 1)) :
    minYear ≤ yearOfDay day ∧ yearOfDay day ≤ maxYear := by
  obtain ⟨low, high⟩ := yearOfDay_spec day
  constructor
  · apply Int.not_lt.mp
    intro before
    have := daysBeforeYear_le (Int.add_one_le_of_lt before)
    omega
  · apply Int.not_lt.mp
    intro after
    have := daysBeforeYear_le (Int.add_one_le_of_lt after)
    omega

/-! ## Months -/

/-- The month of a day of the year ends after the day and is the first that does. -/
theorem monthAndDay_spec (month : Nat) (h : passed < lengths.sum) : ∃ before n after,
    lengths = before ++ n :: after ∧ before.sum ≤ passed ∧ passed < before.sum + n ∧
      monthAndDay lengths month passed = (month + before.length, passed - before.sum + 1) := by
  induction lengths generalizing month passed with
  | nil => cases h
  | cons n rest ih =>
      rw [monthAndDay]
      split
      · next inside => exact ⟨[], n, rest, rfl, Nat.zero_le _, by simpa using inside, rfl⟩
      · next beyond =>
          rw [List.sum_cons] at h
          -- what goes beyond this month falls into the months behind it
          have less : passed - n < rest.sum := by omega
          obtain ⟨before, k, after, rfl, low, high, found⟩ := ih (month + 1) less
          refine ⟨n :: before, k, after, rfl, ?_, ?_, ?_⟩
          · rw [List.sum_cons]
            omega
          · rw [List.sum_cons]
            omega
          · rw [found, List.sum_cons, List.length_cons]
            congr 1 <;> omega

/-! ## Dates -/

/-- The date of a day names its year, a month of it and a day of that month. -/
theorem dateOfDay_spec (day : Int) : ∃ before n after passed,
    monthLengths (yearOfDay (day + epochDay)) = before ++ n :: after ∧ passed < n ∧
      day + epochDay = daysBeforeYear (yearOfDay (day + epochDay)) + (before.sum + passed : Nat) ∧
      dateOfDay day = ⟨yearOfDay (day + epochDay), before.length + 1, passed + 1⟩ := by
  unfold dateOfDay
  dsimp only
  obtain ⟨low, high⟩ := yearOfDay_spec (day + epochDay)
  generalize yearOfDay (day + epochDay) = year at low high ⊢
  have inside : (day + epochDay - daysBeforeYear year).toNat < (monthLengths year).sum := by
    rw [daysBeforeYear_succ] at high
    omega
  obtain ⟨before, n, after, months, first, last, found⟩ := monthAndDay_spec 1 inside
  refine ⟨before, n, after, (day + epochDay - daysBeforeYear year).toNat - before.sum, months,
    by omega, by omega, ?_⟩
  rw [found, Nat.add_comm 1]

/-- **The day of a day's date is the day.** -/
theorem dayNumber_dateOfDay (day : Int) : dayNumber (dateOfDay day) = day := by
  obtain ⟨before, n, after, passed, months, -, total, date⟩ := dateOfDay_spec day
  have elapsed : (monthLengths (yearOfDay (day + epochDay))).take before.length = before := by
    rw [months, List.take_left]
  unfold dayNumber
  rw [date]
  simp only [Nat.add_sub_cancel, elapsed, ← List.sum_eq_foldl]
  omega

theorem isReal_dateOfDay (lower : daysBeforeYear minYear ≤ day + epochDay)
    (upper : day + epochDay < daysBeforeYear (maxYear + 1)) : (dateOfDay day).isReal = true := by
  obtain ⟨before, n, after, passed, months, inside, -, date⟩ := dateOfDay_spec day
  obtain ⟨first, last⟩ := yearOfDay_bounds lower upper
  have length : (monthLengths (yearOfDay (day + epochDay)))[before.length]? = some n := by
    rw [months, List.getElem?_append_right (Nat.le_refl _), Nat.sub_self]
    rfl
  rw [date]
  simp [Date.isReal, first, last, length, Nat.succ_le_of_lt inside]

/-- A date of the calendar has a month of two digits at most, and a day of two. -/
theorem month_day_lt (day : Int) : (dateOfDay day).month < 100 ∧ (dateOfDay day).day < 100 := by
  obtain ⟨before, n, after, passed, months, inside, -, date⟩ := dateOfDay_spec day
  have twelve : (before ++ n :: after).length = 12 := by rw [← months]; rfl
  have short : ∀ m ∈ monthLengths (yearOfDay (day + epochDay)), m ≤ 31 := by
    unfold monthLengths
    cases isLeap (yearOfDay (day + epochDay)) <;> decide
  have length := short n (by rw [months]; simp)
  rw [List.length_append, List.length_cons] at twelve
  rw [date]
  constructor
  · show before.length + 1 < 100
    omega
  · show passed + 1 < 100
    omega

end TemporalDB.Calendar
