import TemporalDB.Calendar
import TemporalDB.Text.Number
import TemporalDB.Toml

/-!
# Scalars in TOML

Numbers, truth values and times. Digits may have underscores between them, but not at their ends.
-/

namespace TemporalDB.Toml

open Text

def ungrouped (isDigit : Char → Bool) (s : List Char) : Option (List Char) :=
  let pieces := s.splitOn '_'
  if pieces.all fun p => !p.isEmpty && p.all isDigit then some pieces.flatten else none

def inBase (base : Nat) (digits : List Char) : Nat :=
  digits.foldl (fun n c =>
    n * base + (if c.isDigit then digitValue c else c.toLower.toNat - 'a'.toNat + 10)) 0

def hasLeadingZero (digits : List Char) : Bool := digits.head? = some '0' && digits.length ≠ 1

def integer? (s : List Char) : Option Toml := do
  let n ← match s with
    | '0' :: 'x' :: rest =>
      (ungrouped (fun c => c.isDigit || ('a' ≤ c.toLower && c.toLower ≤ 'f')) rest).map fun d =>
        Int.ofNat (inBase 16 d)
    | '0' :: 'o' :: rest =>
      (ungrouped (fun c => '0' ≤ c && c ≤ '7') rest).map fun d => Int.ofNat (inBase 8 d)
    | '0' :: 'b' :: rest =>
      (ungrouped (fun c => c = '0' || c = '1') rest).map fun d => Int.ofNat (inBase 2 d)
    | _ => do
      let (negative, rest) := match s with
        | '-' :: rest => (true, rest)
        | '+' :: rest => (false, rest)
        | _ => (false, s)
      let digits ← ungrouped Char.isDigit rest
      if hasLeadingZero digits then none
      else
        let n := Int.ofNat (digitsValue digits)
        some (if negative then -n else n)
  if (int64? n).isSome then some (.integer n) else none

/-- A number with a fraction or an exponent. It may not be too great, but it may be too small. -/
def real? (s : List Char) : Option Toml := do
  let (negative, body) := match s with
    | '-' :: rest => (true, rest)
    | '+' :: rest => (false, rest)
    | _ => (false, s)
  if body = "inf".toList then some (.real (.infinity negative))
  else if body = "nan".toList then some (.real .nan)
  else
    let mantissa := body.takeWhile fun c => c ≠ 'e' && c ≠ 'E'
    let whole := mantissa.takeWhile (· ≠ '.')
    let digits ← ungrouped Char.isDigit whole
    let fraction ← match mantissa.drop whole.length with
      | [] => some []
      | _ :: rest => ungrouped Char.isDigit rest
    let exponent ← match body.drop mantissa.length with
      | [] => if mantissa.length = whole.length then none else some 0
      | _ :: '-' :: rest => (ungrouped Char.isDigit rest).map fun d => -Int.ofNat (digitsValue d)
      | _ :: '+' :: rest => (ungrouped Char.isDigit rest).map fun d => Int.ofNat (digitsValue d)
      | _ :: rest => (ungrouped Char.isDigit rest).map fun d => Int.ofNat (digitsValue d)
    let x := Binary64.ofDecimal negative (digitsValue (digits ++ fraction))
      (exponent - fraction.length)
    if hasLeadingZero digits || x = .infinity false then none else some (.real x)

/-- The number that exactly so many digits denote, and what follows them. -/
def fixedDigits (width : Nat) (s : List Char) : Option (Nat × List Char) :=
  if (s.take width).length = width && (s.take width).all Char.isDigit then
    some (digitsValue (s.take width), s.drop width)
  else none

def expect (c : Char) : List Char → Option (List Char)
  | d :: rest => if d = c then some rest else none
  | [] => none

def date? (s : List Char) : Option (String × List Char) := do
  let (year, rest) ← fixedDigits 4 s
  let (month, rest) ← fixedDigits 2 (← expect '-' rest)
  let (day, rest) ← fixedDigits 2 (← expect '-' rest)
  if Calendar.Date.isReal ⟨year, month, day⟩ then
    some (String.ofList (zeroPadded 4 year ++ '-' :: zeroPadded 2 month ++ '-' :: zeroPadded 2 day),
      rest)
  else none

def time? (s : List Char) : Option (String × List Char) := do
  let (hour, rest) ← fixedDigits 2 s
  let (minute, rest) ← fixedDigits 2 (← expect ':' rest)
  let (second, rest) ← fixedDigits 2 (← expect ':' rest)
  if hour ≤ 23 && minute ≤ 59 && second ≤ 60 then
    let shown := zeroPadded 2 hour ++ ':' :: zeroPadded 2 minute ++ ':' :: zeroPadded 2 second
    match rest with
    | '.' :: rest =>
      let digits := rest.takeWhile Char.isDigit
      if digits.isEmpty then none
      else
        let fraction := ((digits.take 9).reverse.dropWhile (· = '0')).reverse
        some (String.ofList (shown ++ if fraction.isEmpty then [] else '.' :: fraction),
          rest.drop digits.length)
    | _ => some (String.ofList shown, rest)
  else none

def offset? : List Char → Option String
  | [] => some ""
  | ['Z'] | ['z'] => some "Z"
  | sign :: rest => do
    if sign = '+' || sign = '-' then
      let (hour, rest) ← fixedDigits 2 rest
      let (minute, rest) ← fixedDigits 2 (← expect ':' rest)
      if hour ≤ 23 && minute ≤ 59 && rest.isEmpty then
        some (String.ofList (sign :: zeroPadded 2 hour ++ ':' :: zeroPadded 2 minute))
      else none
    else none

/-- A date, a time of day, or both, with or without an offset. -/
def moment? (s : List Char) : Option Toml :=
  match date? s with
  | some (date, []) => some (.text date)
  | some (date, c :: rest) =>
    if c = 'T' || c = 't' || c = ' ' then do
      let (time, rest) ← time? rest
      some (.text (date ++ "T" ++ time ++ (← offset? rest)))
    else none
  | none =>
    match time? s with
    | some (time, []) => some (.text time)
    | _ => none

def scalar? (s : List Char) : Option Toml :=
  if s = "true".toList then some (.flag true)
  else if s = "false".toList then some (.flag false)
  else (integer? s).orElse fun _ => (real? s).orElse fun _ => moment? s

end TemporalDB.Toml
