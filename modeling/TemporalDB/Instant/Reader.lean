import TemporalDB.Instant
import TemporalDB.Text.Blank

/-!
# Reading instants

Three forms are read. `Instant.readStrict` is RFC 3339: digits in full width and an offset.
`Instant.readPlain` is a date and a time of day without an offset, taken as Universal Time; blanks
may stand before each number. `Instant.readRelaxed` has an offset as the first and blanks as the
second. All three read second 60 in any minute as a leap second, and cut a fraction off after nine
digits.
-/

namespace TemporalDB.Instant

open Text Calendar

/-- A number of at least `least` and at most `most` digits, as many as there are, and the text
after it. -/
def readNumber (least most : Nat) (s : List Char) : Option (Nat × List Char) :=
  let ds := (s.take most).takeWhile Char.isDigit
  if least ≤ ds.length then some (digitsValue ds, s.drop ds.length) else none

/-- What follows a given character. -/
def expect (c : Char) : List Char → Option (List Char)
  | d :: rest => if d = c then some rest else none
  | [] => none

/-- A date and a time of day as numbers. -/
structure Fields where
  date : Date
  hour : Nat
  minute : Nat
  second : Nat
  nanos : Nat

/-- The instant that the numbers name when the clock that shows them is `offset` seconds ahead of
Universal Time, if the date is real, the time of day is one and the calendar reaches so far. -/
def ofFields? (f : Fields) (offset : Int) : Option Instant :=
  if f.date.isReal && f.hour ≤ 23 && f.minute ≤ 59 && f.second ≤ 60 then
    let (second, nanos) :=
      if f.second = 60 then (59, f.nanos + nanosPerSecond) else (f.second, f.nanos)
    ofParts? (dayNumber f.date * secondsPerDay + (f.hour * 3600 + f.minute * 60 + second : Nat)
      - offset) nanos
  else none

/-- The fraction of a second, in nanoseconds: nothing, or a point and digits of which the first
nine count. -/
def readFraction : List Char → Option (Nat × List Char)
  | '.' :: rest => do
    let ds := (rest.take 9).takeWhile Char.isDigit
    if ds.isEmpty then none
    else some (digitsValue ds * powerOfTen (9 - ds.length), rest.dropWhile Char.isDigit)
  | s => some (0, s)

/-- An offset from Universal Time in seconds: the letter Z, or a sign, hours and minutes with
`colon` between them. The sign may be a minus sign in its own right, U+2212. -/
def readOffset (colon : List Char → Option (List Char)) : List Char → Option (Int × List Char)
  | [] => none
  | c :: rest => do
    if c = 'Z' || c = 'z' then some (0, rest)
    else
      let sign : Int ← 
        if c = '+' then some 1 else if c = '-' || c = '\u2212' then some (-1) else none
      let (hours, rest) ← readNumber 2 2 rest
      let rest ← colon rest
      let (minutes, rest) ← readNumber 2 2 rest
      if minutes ≤ 59 then some (sign * (hours * 3600 + minutes * 60 : Nat), rest) else none

/-- RFC 3339: a date, one of `T`, `t` and a space, a time of day and an offset of less than a
day. -/
def readStrict (s : List Char) : Option Instant := do
  let (year, s) ← readNumber 4 4 s
  let s ← expect '-' s
  let (month, s) ← readNumber 2 2 s
  let s ← expect '-' s
  let (day, s) ← readNumber 2 2 s
  let s ← match s with
    | c :: rest => if c = 'T' || c = 't' || c = ' ' then some rest else none
    | [] => none
  let (hour, s) ← readNumber 2 2 s
  let s ← expect ':' s
  let (minute, s) ← readNumber 2 2 s
  let s ← expect ':' s
  let (second, s) ← readNumber 2 2 s
  let (nanos, s) ← readFraction s
  let (offset, s) ← readOffset (expect ':') s
  if s.isEmpty && offset.natAbs < 86400 then
    ofFields? ⟨⟨year, month, day⟩, hour, minute, second, nanos⟩ offset
  else none

/-- A number of one or two digits after any blanks. -/
def readShort (s : List Char) : Option (Nat × List Char) := readNumber 1 2 (skipBlanks s)

/-- A year after any blanks: up to four digits, or a sign and any number of digits. -/
def readYear (s : List Char) : Option (Int × List Char) :=
  match skipBlanks s with
  | '-' :: rest => (readNumber 1 rest.length rest).map fun (n, rest) => (-(n : Int), rest)
  | '+' :: rest => (readNumber 1 rest.length rest).map fun (n, rest) => ((n : Int), rest)
  | s => (readNumber 1 4 s).map fun (n, rest) => ((n : Int), rest)

/-- A date, with `separator` in front of its month and of its day. -/
def readDate (separator : List Char → Option (List Char)) (s : List Char) :
    Option (Date × List Char) := do
  let (year, s) ← readYear s
  let s ← separator s
  let (month, s) ← readShort s
  let s ← separator s
  let (day, s) ← readShort s
  some (⟨year, month, day⟩, s)

/-- A time of day, with `separator` in front of its minute and of its second. -/
def readTime (separator : List Char → Option (List Char)) (s : List Char) :
    Option ((Nat × Nat × Nat × Nat) × List Char) := do
  let (hour, s) ← readShort s
  let s ← separator s
  let (minute, s) ← readShort s
  let s ← separator s
  let (second, s) ← readShort s
  let (nanos, s) ← readFraction s
  some ((hour, minute, second, nanos), s)

/-- A date and a time of day of Universal Time, with any blanks or none between them. -/
def readPlain (s : List Char) : Option Instant := do
  let (date, s) ← readDate (expect '-') s
  let ((hour, minute, second, nanos), s) ← readTime (expect ':') s
  if s.isEmpty then ofFields? ⟨date, hour, minute, second, nanos⟩ 0 else none

/-- A date, one of `T`, `t` and a space, a time of day and an offset, for which `UTC` may stand
too. Blanks may stand around every part but before that one character. -/
def readRelaxed (s : List Char) : Option Instant := do
  let (date, s) ← readDate (fun s => expect '-' (skipBlanks s)) s
  let s ← match s with
    | c :: rest => if c = 'T' || c = 't' || c = ' ' then some rest else none
    | [] => none
  let ((hour, minute, second, nanos), s) ← readTime (fun s => expect ':' (skipBlanks s)) s
  let s := skipBlanks s
  let (offset, s) ←
    if (s.take 3).map Char.toUpper = ['U', 'T', 'C'] then some ((0 : Int), s.drop 3)
    else readOffset (fun s => some (s.dropWhile fun c => c = ':' || isBlank c)) s
  if (skipBlanks s).isEmpty && offset.natAbs < 86400 then
    ofFields? ⟨date, hour, minute, second, nanos⟩ offset
  else none

/-- An instant as a value of a table or a parameter is written: RFC 3339, or else the plain
form. -/
def read (s : List Char) : Option Instant := (readStrict s).or (readPlain s)

end TemporalDB.Instant
