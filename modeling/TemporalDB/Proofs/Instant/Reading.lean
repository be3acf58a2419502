import Mathlib.Data.List.Basic
import TemporalDB.Instant.Reader
import TemporalDB.Proofs.Calendar
import TemporalDB.Proofs.Text.Line
import TemporalDB.Proofs.Text.Number

/-!
# Instants, written and read

Every instant is read back from its text with the letter Z in the relaxed form. From its text with
an offset in digits it is read back, as values are read, just if its year has four digits; the text
of any other instant is no value at all. Such an instant is read from its plain form, though, so
every instant has a literal.
-/

namespace TemporalDB.Instant

open Text Calendar

variable {c : Char} {ds rest s : List Char} {least most n width : Nat} {t : Instant} {d : Date}
  {f : Fields} {separator : List Char → Option (List Char)}

/-! ## Numbers -/

theorem noDigit_take (h : NoDigit rest) : NoDigit (rest.take n) := by
  cases rest with
  | nil => simp [NoDigit]
  | cons c rest =>
      cases n with
      | zero => simp [NoDigit]
      | succ n => exact noDigit_cons (h c rfl)

theorem takeWhile_isDigit_take (digits : ∀ c ∈ ds, c.isDigit = true) (high : ds.length ≤ most)
    (stop : NoDigit rest) : ((ds ++ rest).take most).takeWhile Char.isDigit = ds := by
  rw [List.take_append, List.take_of_length_le high]
  exact takeWhile_isDigit_append digits (noDigit_take stop)

theorem readNumber_append (digits : ∀ c ∈ ds, c.isDigit = true) (low : least ≤ ds.length)
    (high : ds.length ≤ most) (stop : NoDigit rest) :
    readNumber least most (ds ++ rest) = some (digitsValue ds, rest) := by
  unfold readNumber
  dsimp only
  rw [takeWhile_isDigit_take digits high stop, if_pos low, List.drop_left]

theorem readNumber_zeroPadded (low : least ≤ width) (pos : 0 < width) (h : n < 10 ^ width)
    (high : width ≤ most) (stop : NoDigit rest) :
    readNumber least most (zeroPadded width n ++ rest) = some (n, rest) := by
  have length : (zeroPadded width n).length = width := length_zeroPadded pos h
  rw [readNumber_append (fun c hc => isDigit_of_mem_zeroPadded hc) (by omega) (by omega) stop,
    digitsValue_zeroPadded]

theorem skipBlanks_zeroPadded (pos : 0 < width) :
    skipBlanks (zeroPadded width n ++ rest) = zeroPadded width n ++ rest := by
  have nonempty : zeroPadded width n ≠ [] := by
    rw [← List.length_pos_iff]
    exact Nat.lt_of_lt_of_le pos (le_length_zeroPadded width n)
  obtain ⟨c, ds, hc⟩ := List.exists_cons_of_ne_nil nonempty
  have digit : c.isDigit = true :=
    isDigit_of_mem_zeroPadded (by rw [hc]; exact List.mem_cons_self)
  rw [hc, List.cons_append, skipBlanks_cons (isBlank_eq_false_of_isDigit digit)]

theorem readShort_zeroPadded (h : n < 100) (stop : NoDigit rest) :
    readShort (zeroPadded 2 n ++ rest) = some (n, rest) := by
  rw [readShort, skipBlanks_zeroPadded (by decide),
    readNumber_zeroPadded (by decide) (by decide) h (by decide) stop]

/-! ## Dates -/

def dateText (d : Date) : List Char :=
  yearText d.year ++ '-' :: (zeroPadded 2 d.month ++ '-' :: zeroPadded 2 d.day)

/-- A number that is read as a year without a sign begins with none. -/
theorem readYear_zeroPadded (h : n < 10 ^ 4) (stop : NoDigit rest) :
    readYear (zeroPadded 4 n ++ rest) = some ((n : Int), rest) := by
  have unsigned : ∀ c others, zeroPadded 4 n ++ rest = c :: others → c.isDigit = true := by
    intro c others hc
    have pos : 0 < (zeroPadded 4 n).length := Nat.le_trans (by decide) (le_length_zeroPadded 4 n)
    obtain ⟨d, ds, hd⟩ := List.exists_cons_of_ne_nil (List.length_pos_iff.mp pos)
    rw [hd, List.cons_append] at hc
    injection hc with same
    rw [← same]
    exact isDigit_of_mem_zeroPadded (by rw [hd]; exact List.mem_cons_self)
  unfold readYear
  rw [skipBlanks_zeroPadded (by decide)]
  split
  · next hs => exact absurd (unsigned _ _ hs) (by decide)
  · next hs => exact absurd (unsigned _ _ hs) (by decide)
  · rw [readNumber_zeroPadded (by decide) (by decide) h (by decide) stop]
    rfl

/-- A number that follows the sign of a year is read to the end of its digits. -/
theorem readNumber_signed (stop : NoDigit rest) :
    readNumber 1 (zeroPadded 4 n ++ rest).length (zeroPadded 4 n ++ rest) = some (n, rest) := by
  have least : 1 ≤ (zeroPadded 4 n).length :=
    Nat.le_trans (by decide) (le_length_zeroPadded 4 n)
  rw [readNumber_append (fun c hc => isDigit_of_mem_zeroPadded hc) least
    (by rw [List.length_append]; omega) stop, digitsValue_zeroPadded]

theorem readYear_minus (s : List Char) : readYear ('-' :: s) =
    (readNumber 1 s.length s).map fun (n, rest) => (-(n : Int), rest) := rfl

theorem readYear_plus (s : List Char) : readYear ('+' :: s) =
    (readNumber 1 s.length s).map fun (n, rest) => ((n : Int), rest) := rfl

/-- **A year is read back from its text.** -/
theorem readYear_yearText (y : Int) (stop : NoDigit rest) :
    readYear (yearText y ++ rest) = some (y, rest) := by
  unfold yearText
  split_ifs with short negative
  · have same : (y.natAbs : Int) = y := by omega
    rw [readYear_zeroPadded (by omega) stop, same]
  · have same : -(y.natAbs : Int) = y := by omega
    rw [List.cons_append, readYear_minus, readNumber_signed stop, Option.map_some]
    exact congrArg (fun z => some (z, rest)) same
  · have same : (y.natAbs : Int) = y := by omega
    rw [List.cons_append, readYear_plus, readNumber_signed stop, Option.map_some]
    exact congrArg (fun z => some (z, rest)) same

/-- A date is read back, if its month and its day have two digits. -/
theorem readDate_dateText (hyphen : ∀ s, separator ('-' :: s) = some s) (month : d.month < 100)
    (day : d.day < 100) (stop : NoDigit rest) :
    readDate separator (dateText d ++ rest) = some (d, rest) := by
  unfold readDate dateText
  simp only [List.append_assoc, List.cons_append, Option.bind_eq_bind]
  rw [readYear_yearText _ (noDigit_cons (by decide)), Option.bind_some]
  dsimp only
  rw [hyphen, Option.bind_some, readShort_zeroPadded month (noDigit_cons (by decide)),
    Option.bind_some]
  dsimp only
  rw [hyphen, Option.bind_some, readShort_zeroPadded day stop]
  rfl

/-! ## Times of day -/

theorem readFraction_cons (s : List Char) : readFraction ('.' :: s) =
    if ((s.take 9).takeWhile Char.isDigit).isEmpty then none
    else some (digitsValue ((s.take 9).takeWhile Char.isDigit) *
      powerOfTen (9 - ((s.take 9).takeWhile Char.isDigit).length), s.dropWhile Char.isDigit) := rfl

theorem readFraction_point (pos : 0 < width) (nine : width ≤ 9) (h : n < 10 ^ width)
    (stop : NoDigit rest) :
    readFraction ('.' :: (zeroPadded width n ++ rest)) = some (n * powerOfTen (9 - width), rest) := by
  have length : (zeroPadded width n).length = width := length_zeroPadded pos h
  have digits : ∀ c ∈ zeroPadded width n, c.isDigit = true := fun c hc =>
    isDigit_of_mem_zeroPadded hc
  have full : (zeroPadded width n).isEmpty = false := by
    rw [List.isEmpty_eq_false_iff, ← List.length_pos_iff]
    omega
  rw [readFraction_cons, takeWhile_isDigit_take digits (by omega) stop, full,
    dropWhile_isDigit_append digits stop, digitsValue_zeroPadded, length]
  rfl

/-- **A fraction of a second is read back from its text**, if neither a digit nor a point comes
after it. -/
theorem readFraction_fractionText (h : n < nanosPerSecond) (stop : NoDigit rest)
    (point : rest.head? ≠ some '.') : readFraction (fractionText n ++ rest) = some (n, rest) := by
  unfold nanosPerSecond at h
  unfold fractionText
  split_ifs with none three six
  · rw [none, List.nil_append]
    unfold readFraction
    split
    · exact absurd rfl point
    · rfl
  · rw [List.cons_append, readFraction_point (by decide) (by decide) (by omega) stop]
    have whole : n / 1000000 * powerOfTen (9 - 3) = n := Nat.div_mul_cancel (Nat.dvd_of_mod_eq_zero three)
    rw [whole]
  · rw [List.cons_append, readFraction_point (by decide) (by decide) (by omega) stop]
    have whole : n / 1000 * powerOfTen (9 - 6) = n := Nat.div_mul_cancel (Nat.dvd_of_mod_eq_zero six)
    rw [whole]
  · rw [List.cons_append, readFraction_point (by decide) (by decide) (by omega) stop]
    exact congrArg (fun m => some (m, rest)) (Nat.mul_one n)

def fields (t : Instant) : Fields :=
  let second := (t.seconds % secondsPerDay).toNat
  ⟨t.date, second / 3600, second / 60 % 60, second % 60 + t.nanos / nanosPerSecond,
    t.nanos % nanosPerSecond⟩

def timeText (f : Fields) : List Char :=
  zeroPadded 2 f.hour ++ ':' :: (zeroPadded 2 f.minute ++ ':' :: (zeroPadded 2 f.second ++
    fractionText f.nanos))

theorem localText_eq : t.localText = dateText t.date ++ 'T' :: timeText t.fields := by
  unfold localText dateText timeText fields
  simp only [List.append_assoc, List.cons_append, List.nil_append]

/-- Numbers that a clock can show. -/
structure Fields.Shown (f : Fields) : Prop where
  month : f.date.month < 100
  day : f.date.day < 100
  hour : f.hour ≤ 23
  minute : f.minute ≤ 59
  second : f.second ≤ 60
  nanos : f.nanos < nanosPerSecond

theorem noDigit_fractionText (stop : NoDigit rest) : NoDigit (fractionText n ++ rest) := by
  unfold fractionText
  split_ifs
  · exact stop
  all_goals exact noDigit_cons (by decide)

/-- **A time of day is read back from its text.** -/
theorem readTime_timeText (colon : ∀ s, separator (':' :: s) = some s) (shown : f.Shown)
    (stop : NoDigit rest) (point : rest.head? ≠ some '.') :
    readTime separator (timeText f ++ rest) =
      some ((f.hour, f.minute, f.second, f.nanos), rest) := by
  have hour : f.hour < 100 := Nat.lt_of_le_of_lt shown.hour (by decide)
  have minute : f.minute < 100 := Nat.lt_of_le_of_lt shown.minute (by decide)
  have second : f.second < 100 := Nat.lt_of_le_of_lt shown.second (by decide)
  unfold readTime timeText
  simp only [List.append_assoc, List.cons_append, Option.bind_eq_bind]
  rw [readShort_zeroPadded hour (noDigit_cons (by decide)), Option.bind_some]
  dsimp only
  rw [colon, Option.bind_some, readShort_zeroPadded minute (noDigit_cons (by decide)),
    Option.bind_some]
  dsimp only
  rw [colon, Option.bind_some, readShort_zeroPadded second (noDigit_fractionText stop),
    Option.bind_some]
  dsimp only
  rw [readFraction_fractionText shown.nanos stop point]
  rfl

/-! ## Instants from their numbers -/

theorem ofParts?_seconds_nanos : ofParts? t.seconds t.nanos = some t :=
  dif_pos ⟨t.first_le, t.lt_end, t.nanos_lt, t.leap_last⟩

theorem isReal_date : t.date.isReal = true := by
  have first := t.first_le
  have last := t.lt_end
  have lower : daysBeforeYear minYear ≤ t.seconds / secondsPerDay + epochDay := by
    have low : dayNumber ⟨minYear, 1, 1⟩ + epochDay = daysBeforeYear minYear := by decide
    unfold secondsPerDay at first ⊢
    omega
  have upper : t.seconds / secondsPerDay + epochDay < daysBeforeYear (maxYear + 1) := by
    have high : dayNumber ⟨maxYear, 12, 31⟩ + 1 + epochDay = daysBeforeYear (maxYear + 1) := by
      decide
    unfold secondsPerDay at last ⊢
    omega
  exact isReal_dateOfDay lower upper

theorem shown_fields : t.fields.Shown := by
  obtain ⟨month, day⟩ := month_day_lt (t.seconds / secondsPerDay)
  have nanos := t.nanos_lt
  have inDay : (t.seconds % secondsPerDay).toNat < 86400 ∧
      (t.seconds % secondsPerDay).toNat % 60 = (t.seconds % 60).toNat := by
    unfold secondsPerDay
    omega
  refine ⟨month, day, ?_, ?_, ?_, ?_⟩
  · show (t.seconds % secondsPerDay).toNat / 3600 ≤ 23
    omega
  · show (t.seconds % secondsPerDay).toNat / 60 % 60 ≤ 59
    omega
  · show (t.seconds % secondsPerDay).toNat % 60 + t.nanos / nanosPerSecond ≤ 60
    unfold nanosPerSecond at nanos ⊢
    omega
  · exact Nat.mod_lt _ (by decide)

/-- **The numbers that an instant shows name the instant.** -/
theorem ofFields?_fields : ofFields? t.fields 0 = some t := by
  have shown := t.shown_fields
  have real : t.fields.date.isReal = true := t.isReal_date
  have leap := t.leap_last
  have nanos := t.nanos_lt
  unfold ofFields?
  rw [real, if_pos (by simp [shown.hour, shown.minute, shown.second])]
  have day : dayNumber t.fields.date = t.seconds / secondsPerDay := dayNumber_dateOfDay _
  -- a minute of sixty-one seconds shows its last one as second 60
  have clock : (if t.fields.second = 60 then (59, t.fields.nanos + nanosPerSecond)
      else (t.fields.second, t.fields.nanos)) =
        ((t.seconds % secondsPerDay).toNat % 60, t.nanos) := by
    unfold fields nanosPerSecond secondsPerDay at *
    dsimp only
    split_ifs with sixty
    · congr 1 <;> omega
    · congr 1 <;> omega
  rw [clock, day]
  have total : t.seconds / secondsPerDay * secondsPerDay +
      (t.fields.hour * 3600 + t.fields.minute * 60 + (t.seconds % secondsPerDay).toNat % 60 : Nat) -
        0 = t.seconds := by
    unfold fields secondsPerDay
    dsimp only
    omega
  dsimp only
  rw [total, ofParts?_seconds_nanos]

/-! ## Whole texts -/

/-- **An instant is read back from its text with the letter Z.** -/
theorem readRelaxed_zuluText : readRelaxed t.zuluText.toList = some t := by
  have shown := t.shown_fields
  have month : t.date.month < 100 := shown.month
  have day : t.date.day < 100 := shown.day
  unfold readRelaxed zuluText
  rw [String.toList_ofList, localText_eq, List.append_assoc, List.cons_append]
  simp only [Option.bind_eq_bind]
  rw [readDate_dateText (fun s => rfl) month day (noDigit_cons (by decide)),
    Option.bind_some]
  dsimp only
  rw [if_pos (by decide), Option.bind_some,
    readTime_timeText (fun s => rfl) shown (noDigit_cons (by decide)) (by decide),
    Option.bind_some]
  exact ofFields?_fields

def offsetText : List Char := ['+', '0', '0', ':', '0', '0']

theorem toList_text : t.text.toList = dateText t.date ++ 'T' :: (timeText t.fields ++ offsetText) := by
  rw [text, String.toList_ofList, localText_eq, List.append_assoc, List.cons_append]
  rfl

theorem readTwo_zeroPadded (h : n < 100) (stop : NoDigit rest) :
    readNumber 2 2 (zeroPadded 2 n ++ rest) = some (n, rest) :=
  readNumber_zeroPadded (by decide) (by decide) h (by decide) stop

/-- Whether the year of an instant is written with four digits and no sign. -/
def FourDigitYear (t : Instant) : Prop := 0 ≤ t.date.year ∧ t.date.year ≤ 9999

instance : Decidable t.FourDigitYear := inferInstanceAs (Decidable (_ ∧ _))

theorem some_bind {α β : Type} {a : α} {f : α → Option β} : (some a >>= f) = f a := rfl

theorem readStrict_text (short : t.FourDigitYear) : readStrict t.text.toList = some t := by
  have shown := t.shown_fields
  have month : t.date.month < 100 := shown.month
  have day : t.date.day < 100 := shown.day
  have hour : t.fields.hour < 100 := Nat.lt_of_le_of_lt shown.hour (by decide)
  have minute : t.fields.minute < 100 := Nat.lt_of_le_of_lt shown.minute (by decide)
  have second : t.fields.second < 100 := Nat.lt_of_le_of_lt shown.second (by decide)
  obtain ⟨low, high⟩ := short
  have year : ((t.date.year.natAbs : Nat) : Int) = t.date.year := by omega
  have minus : ∀ s, expect '-' ('-' :: s) = some s := fun s => rfl
  have colon : ∀ s, expect ':' (':' :: s) = some s := fun s => rfl
  have offset : readOffset (expect ':') offsetText = some (0, []) := by decide
  have stop : NoDigit offsetText := noDigit_cons (by decide)
  -- the text field by field, each with the separator that stops it
  have row : t.text.toList = zeroPadded 4 t.date.year.natAbs ++ '-' :: (zeroPadded 2 t.date.month ++
      '-' :: (zeroPadded 2 t.date.day ++ 'T' :: (zeroPadded 2 t.fields.hour ++ ':' ::
        (zeroPadded 2 t.fields.minute ++ ':' :: (zeroPadded 2 t.fields.second ++
          (fractionText t.fields.nanos ++ offsetText)))))) := by
    rw [toList_text, dateText, timeText, yearText, if_pos ⟨low, high⟩]
    simp only [List.append_assoc, List.cons_append]
  rw [row, readStrict, readNumber_zeroPadded (by decide) (by decide) (by omega) (by decide)
    (noDigit_cons (by decide)), some_bind]
  dsimp only
  rw [minus, some_bind, readTwo_zeroPadded month (noDigit_cons (by decide)),
    some_bind]
  dsimp only
  rw [minus, some_bind, readTwo_zeroPadded day (noDigit_cons (by decide)),
    some_bind]
  dsimp only
  rw [if_pos (by decide), some_bind,
    readTwo_zeroPadded hour (noDigit_cons (by decide)), some_bind]
  dsimp only
  rw [colon, some_bind, readTwo_zeroPadded minute (noDigit_cons (by decide)),
    some_bind]
  dsimp only
  rw [colon, some_bind,
    readTwo_zeroPadded second (noDigit_fractionText stop), some_bind]
  dsimp only
  rw [readFraction_fractionText shown.nanos stop (by decide), some_bind]
  dsimp only
  rw [offset, some_bind, year]
  exact ofFields?_fields

theorem readStrict_cons_of_not_digit (h : c.isDigit = false) : readStrict (c :: s) = none := by
  have stops : readNumber 4 4 (c :: s) = none := by simp [readNumber, h]
  rw [readStrict, stops]
  rfl

theorem exists_cons_dateText_of_long (long : ¬ t.FourDigitYear) :
    ∃ c s, dateText t.date = c :: s ∧ c.isDigit = false := by
  have long' : ¬ (0 ≤ t.date.year ∧ t.date.year ≤ 9999) := long
  rw [dateText, yearText, if_neg long']
  refine ⟨_, _, rfl, ?_⟩
  split_ifs <;> decide

theorem readStrict_text_eq_none (long : ¬ t.FourDigitYear) : readStrict t.text.toList = none := by
  obtain ⟨c, s, hs, notDigit⟩ := exists_cons_dateText_of_long long
  rw [toList_text, hs, List.cons_append]
  exact readStrict_cons_of_not_digit notDigit

/-- The plain form has no letter between the date and the time of day. -/
theorem readPlain_text : readPlain t.text.toList = none := by
  have shown := t.shown_fields
  have month : t.date.month < 100 := shown.month
  have day : t.date.day < 100 := shown.day
  have stops : ∀ s, readTime (expect ':') ('T' :: s) = none := by
    intro s
    have blank : skipBlanks ('T' :: s) = 'T' :: s := skipBlanks_cons (by decide)
    have letter : readNumber 1 2 ('T' :: s) = none := by simp [readNumber]
    rw [readTime, readShort, blank, letter]
    rfl
  rw [toList_text, readPlain, readDate_dateText (fun s => rfl) month day
    (noDigit_cons (by decide)), Option.bind_eq_bind, Option.bind_some]
  dsimp only
  rw [stops]
  rfl

/-- **An instant is read back from its text just if its year has four digits.** The text of any
other instant is that of none. -/
theorem read_text : read t.text.toList = if t.FourDigitYear then some t else none := by
  rw [read, readPlain_text, Option.or_none]
  split_ifs with short
  · exact readStrict_text short
  · exact readStrict_text_eq_none short

theorem exists_cons_yearText {y : Int} :
    ∃ c s, yearText y = c :: s ∧ isBlank c = false := by
  have pos : 0 < (zeroPadded 4 y.natAbs).length :=
    Nat.le_trans (by decide) (le_length_zeroPadded 4 _)
  obtain ⟨d, ds, hd⟩ := List.exists_cons_of_ne_nil (List.length_pos_iff.mp pos)
  unfold yearText
  split_ifs
  · exact ⟨d, ds, hd, isBlank_eq_false_of_isDigit (isDigit_of_mem_zeroPadded
      (by rw [hd]; exact List.mem_cons_self))⟩
  · exact ⟨'-', _, rfl, by decide⟩
  · exact ⟨'+', _, rfl, by decide⟩

theorem trim_text : trim t.text.toList = t.text.toList := by
  apply trim_eq_self
  · obtain ⟨c, s, hs, blank⟩ := exists_cons_yearText (y := t.date.year)
    rw [toList_text, dateText, hs]
    rintro _ ⟨⟩
    exact blank
  · rw [text, String.toList_ofList, List.getLast?_append]
    rintro _ ⟨⟩
    decide

/-! ## Literals -/

/-- The text of an instant in the plain form, which admits a sign in front of the year. -/
def plainText (t : Instant) : List Char := dateText t.date ++ ' ' :: timeText t.fields

theorem isBlank_eq_false_of_mem_fractionText (h : c ∈ fractionText n) : isBlank c = false := by
  have digits : ∀ {width m : Nat}, c ∈ '.' :: zeroPadded width m → isBlank c = false := by
    intro width m h
    rcases List.mem_cons.mp h with rfl | h
    · decide
    · exact isBlank_eq_false_of_isDigit (isDigit_of_mem_zeroPadded h)
  unfold fractionText at h
  split_ifs at h
  · cases h
  · exact digits h
  · exact digits h
  · exact digits h

theorem isBlank_eq_false_of_mem_timeText (h : c ∈ timeText f) : isBlank c = false := by
  unfold timeText at h
  simp only [List.mem_append, List.mem_cons] at h
  rcases h with h | rfl | h | rfl | h | h
  · exact isBlank_eq_false_of_isDigit (isDigit_of_mem_zeroPadded h)
  · decide
  · exact isBlank_eq_false_of_isDigit (isDigit_of_mem_zeroPadded h)
  · decide
  · exact isBlank_eq_false_of_isDigit (isDigit_of_mem_zeroPadded h)
  · exact isBlank_eq_false_of_mem_fractionText h

theorem trim_plainText : trim t.plainText = t.plainText := by
  apply trim_eq_self
  · obtain ⟨c, s, hs, blank⟩ := exists_cons_yearText (y := t.date.year)
    rw [plainText, dateText, hs]
    rintro _ ⟨⟩
    exact blank
  · intro c hc
    have split : t.plainText = (dateText t.date ++ [' ']) ++ timeText t.fields := by
      rw [plainText, List.append_assoc, List.singleton_append]
    have full : timeText t.fields ≠ [] := by simp [timeText]
    rw [split, List.getLast?_append_of_ne_nil _ full] at hc
    exact isBlank_eq_false_of_mem_timeText (List.mem_of_mem_getLast? hc)

theorem readTime_blank (separator : List Char → Option (List Char)) (s : List Char) :
    readTime separator (' ' :: s) = readTime separator s := rfl

/-- **An instant is read back from its plain form**, whatever its year. -/
theorem readPlain_plainText : readPlain t.plainText = some t := by
  have shown := t.shown_fields
  have month : t.date.month < 100 := shown.month
  have day : t.date.day < 100 := shown.day
  have time : readTime (expect ':') (timeText t.fields) =
      some ((t.fields.hour, t.fields.minute, t.fields.second, t.fields.nanos), []) := by
    rw [← List.append_nil (timeText t.fields)]
    exact readTime_timeText (fun s => rfl) shown (by simp [NoDigit]) (by simp)
  rw [plainText, readPlain, readDate_dateText (fun s => rfl) month day
    (noDigit_cons (by decide)), some_bind]
  dsimp only
  rw [readTime_blank, time, some_bind]
  exact ofFields?_fields

/-- **Every instant has a literal.** It is the instant's text if its year has four digits, and its
plain form if not. -/
theorem exists_read (t : Instant) : ∃ s : String, read (trim s.toList) = some t := by
  by_cases short : t.FourDigitYear
  · refine ⟨t.text, ?_⟩
    rw [trim_text, read_text, if_pos short]
  · -- the strict form stops at the sign of the year, and the plain form takes it
    refine ⟨String.ofList t.plainText, ?_⟩
    obtain ⟨c, s, hs, notDigit⟩ := exists_cons_dateText_of_long short
    have stops : readStrict t.plainText = none := by
      rw [plainText, hs, List.cons_append]
      exact readStrict_cons_of_not_digit notDigit
    rw [String.toList_ofList, trim_plainText, read, stops, Option.none_or, readPlain_plainText]

end TemporalDB.Instant
