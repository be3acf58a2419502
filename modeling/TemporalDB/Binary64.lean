import TemporalDB.Text.Number

/-!
# Binary numbers of 64 bits

A finite number is a significand below 2^53 times a power of two, of which the exponent lies from
-1074 to 971; beyond those there are two infinities and what is no number. Ratios and decimals are
rounded to the nearest of them, a tie to the even significand. `Binary64.read` reads a text, and
`Binary64.text` writes one. A number is written with the fewest
digits that are read back as it, without an exponent.
-/

namespace TemporalDB

inductive Binary64 where
  /-- The number `significand * 2 ^ exponent`, or its opposite. The significand is below 2^53, and
  below 2^52 only if the exponent is the least. -/
  | finite (negative : Bool) (significand : Nat) (exponent : Int)
  | infinity (negative : Bool)
  | nan
deriving DecidableEq

namespace Binary64

def minExponent : Int := -1074

def maxExponent : Int := 971

/-- Below it are the significands that need all places but the first. -/
def halfRange : Nat := Nat.pow 2 52

def fullRange : Nat := Nat.pow 2 53

def zero (negative : Bool) : Binary64 := finite negative 0 minExponent

def isZero : Binary64 → Bool
  | finite _ significand _ => significand = 0
  | _ => false

def isFinite : Binary64 → Bool
  | finite .. => true
  | _ => false

/-- A numerator and a denominator of `num / (den * 2 ^ exponent)`. -/
def scaled (num den : Nat) (exponent : Int) : Nat × Nat :=
  if exponent < 0 then (num * Nat.pow 2 exponent.natAbs, den)
  else (num, den * Nat.pow 2 exponent.natAbs)

def nearest (num den : Nat) : Nat :=
  let q := num / den
  let twice := 2 * (num % den)
  if twice < den || (twice = den && q % 2 = 0) then q else q + 1

/-- The number with a significand that may have been rounded up to the bound of all significands, or
an infinity if the exponent is too great. -/
def normalized (negative : Bool) (significand : Nat) (exponent : Int) : Binary64 :=
  let (significand, exponent) :=
    if significand = fullRange then (halfRange, exponent + 1) else (significand, exponent)
  if maxExponent < exponent then infinity negative else finite negative significand exponent

/-- The exponent of the number nearest to a ratio: the least one that keeps the significand in its
range. -/
def exponentOf (num den : Nat) : Int :=
  let guess := max ((num.log2 : Int) - den.log2 - 53) minExponent
  let (n, d) := scaled num den guess
  if n / d < fullRange then guess else guess + 1

/-- The number nearest to a ratio whose denominator is not zero. -/
def ofRatio (negative : Bool) (num den : Nat) : Binary64 :=
  if num = 0 then zero negative
  else
    let exponent := exponentOf num den
    let (n, d) := scaled num den exponent
    normalized negative (nearest n d) exponent

def ofInt (n : Int) : Binary64 := ofRatio (n < 0) n.natAbs 1

/-- The number nearest to `digits * 10 ^ exponent`. Past 310 places before the point it is infinite,
past 330 behind it zero. -/
def ofDecimal (negative : Bool) (digits : Nat) (exponent : Int) : Binary64 :=
  let places := (Nat.toDigits 10 digits).length + exponent
  if digits = 0 || places < -330 then zero negative
  else if 310 < places then infinity negative
  else if exponent < 0 then ofRatio negative digits (Text.powerOfTen exponent.natAbs)
  else ofRatio negative (digits * Text.powerOfTen exponent.natAbs) 1

def ratio (significand : Nat) (exponent : Int) : Nat × Nat :=
  if exponent < 0 then (significand, Nat.pow 2 exponent.natAbs)
  else (significand * Nat.pow 2 exponent.natAbs, 1)

def timesRatio (x : Binary64) (num den : Nat) : Binary64 :=
  match x with
  | finite negative significand exponent =>
    let (n, d) := ratio significand exponent
    ofRatio negative (n * num) (d * den)
  | x => x

/-! ## Reading -/

/-- What a text after an `e` says: a sign, if there is one, and digits. -/
def readExponent (s : List Char) : Option Int :=
  match s with
  | '-' :: rest => (Text.readDigits rest).map fun n => -(n : Int)
  | '+' :: rest => (Text.readDigits rest).map Int.ofNat
  | _ => (Text.readDigits s).map Int.ofNat

/-- A number without its sign: digits with or without a point among them, at least one, and an
exponent, if there is one. -/
def readMagnitude (negative : Bool) (s : List Char) : Option Binary64 := do
  let mantissa := s.takeWhile fun c => c ≠ 'e' && c ≠ 'E'
  let exponent ← match s.drop mantissa.length with
    | [] => some 0
    | _ :: rest => readExponent rest
  let whole := mantissa.takeWhile (· ≠ '.')
  let fraction := mantissa.drop (whole.length + 1)
  let digits ← Text.readDigits (whole ++ fraction)
  some (ofDecimal negative digits (exponent - fraction.length))

/-- The number that a text denotes. The words for what is not finite may be in any case. -/
def read (s : List Char) : Option Binary64 :=
  let (negative, body) := match s with
    | '-' :: rest => (true, rest)
    | '+' :: rest => (false, rest)
    | _ => (false, s)
  let word := String.ofList (body.map Char.toLower)
  if word = "inf" || word = "infinity" then some (infinity negative)
  else if word = "nan" then some nan
  else readMagnitude negative body

/-! ## Shortest digits -/

/-- A number with the numbers that are read as it: all are counted in quarters of the last place.
The ends count if the significand is even. -/
structure Span where
  low : Nat
  value : Nat
  high : Nat
  closed : Bool
  /-- The exponent of a quarter of the last place. -/
  exponent : Int

/-- The span of a significand and an exponent. Below a power of two the numbers lie closer. -/
def span (significand : Nat) (exponent : Int) : Span :=
  { low := 4 * significand -
      (if significand = halfRange && minExponent < exponent then 1 else 2)
    value := 4 * significand
    high := 4 * significand + 2
    closed := significand % 2 = 0
    exponent := exponent - 2 }

/-- A factor for the numbers of a span, and one for the numbers of a grid `10 ^ place`, by which
both become integers of one unit. -/
def Span.factors (s : Span) (place : Int) : Nat × Nat :=
  ((if s.exponent < 0 then 1 else Nat.pow 2 s.exponent.natAbs) *
      (if place < 0 then Text.powerOfTen place.natAbs else 1),
    (if s.exponent < 0 then Nat.pow 2 s.exponent.natAbs else 1) *
      (if place < 0 then 1 else Text.powerOfTen place.natAbs))

/-- The multiple of `10 ^ place` nearest to the value of a span, of two the greater, if it lies in
the span. -/
def Span.onGrid (s : Span) (place : Int) : Option Nat :=
  let (a, b) := s.factors place
  let isIn (n : Nat) : Bool :=
    if s.closed then s.low * a ≤ n * b && n * b ≤ s.high * a
    else s.low * a < n * b && n * b < s.high * a
  let below := s.value * a / b
  let rest := s.value * a % b
  let candidates := if 2 * rest < b then [below, below + 1] else [below + 1, below]
  candidates.find? isIn

/-- The first place, from one downwards, at which there is a multiple in a span, and that. -/
def Span.shortest (s : Span) : Nat → Int → Nat × Int
  | 0, place => (s.value, place)
  | fuel + 1, place =>
    match s.onGrid place with
    | some n => (n, place)
    | none => s.shortest fuel (place - 1)

/-- The place of the first digit of a ratio, or one above it. -/
def leadingPlace (num den : Nat) : Int :=
  if den ≤ num then (Nat.toDigits 10 (num / den)).length
  else 1 - (Nat.toDigits 10 (den / num)).length

/-- The fewest digits that are read back as a number that is not zero, and the place of the last
one. -/
def shortest (significand : Nat) (exponent : Int) : Nat × Int :=
  let (n, d) := ratio significand exponent
  (span significand exponent).shortest 20 (leadingPlace n d)

/-- Digits whose last one stands at a place, written without an exponent. -/
def positional (digits : Nat) (place : Int) : List Char :=
  let ds := Nat.toDigits 10 digits
  if 0 ≤ place then ds ++ List.replicate place.natAbs '0'
  else
    let ds := List.replicate (place.natAbs + 1 - ds.length) '0' ++ ds
    ds.take (ds.length - place.natAbs) ++ '.' :: ds.drop (ds.length - place.natAbs)

def text : Binary64 → String
  | finite negative significand exponent =>
    let magnitude :=
      if significand = 0 then ['0']
      else
        let (digits, place) := shortest significand exponent
        positional digits place
    String.ofList (if negative then '-' :: magnitude else magnitude)
  | infinity negative => if negative then "-inf" else "inf"
  | nan => "NaN"

end Binary64

end TemporalDB
