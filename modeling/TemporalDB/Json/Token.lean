import TemporalDB.Binary64

/-!
# Tokens of JSON text

JSON text is a row of signs, literals, numbers and strings with blanks between them. Four
characters are blank: space, tab, line feed and carriage return.
-/

namespace TemporalDB.Json

open Text

inductive Scalar where
  | null
  | bool (b : Bool)
  | integer (n : Int)
  | real (x : Binary64)
  /-- A number beyond all bounds. -/
  | unbounded
  /-- A string, unless half of a surrogate pair keeps it from being one. -/
  | string (s : Option String)
deriving DecidableEq

inductive Token where
  | leftBrace
  | rightBrace
  | leftBracket
  | rightBracket
  | comma
  | colon
  | scalar (s : Scalar)
deriving DecidableEq

def isGap (c : Char) : Bool := c = ' ' || c = '\n' || c = '\t' || c = '\r'

/-- A piece of a string: a character, or a unit of UTF-16 given by an escape. -/
inductive Piece where
  | char (c : Char)
  | unit (n : Nat)

def hexValue (c : Char) : Option Nat :=
  if c.isDigit then some (c.toNat - '0'.toNat)
  else if 'a' ≤ c && c ≤ 'f' then some (c.toNat - 'a'.toNat + 10)
  else if 'A' ≤ c && c ≤ 'F' then some (c.toNat - 'A'.toNat + 10)
  else none

def hexUnit (a b c d : Char) : Option Nat := do
  let a ← hexValue a
  let b ← hexValue b
  let c ← hexValue c
  let d ← hexValue d
  some (((a * 16 + b) * 16 + c) * 16 + d)

/-- The character that a letter after a backslash stands for. -/
def escaped (c : Char) : Option Char :=
  if c = '"' || c = '\\' || c = '/' then some c
  else if c = 'b' then some '\x08'
  else if c = 'f' then some '\x0c'
  else if c = 'n' then some '\n'
  else if c = 'r' then some '\r'
  else if c = 't' then some '\t'
  else none

/-- The pieces of a string whose opening quote was read, and the text after its closing quote.
Control characters must be escaped. -/
def scanPieces : List Char → Option (List Piece × List Char)
  | [] => none
  | '"' :: rest => some ([], rest)
  | '\\' :: 'u' :: a :: b :: c :: d :: rest => do
    let n ← hexUnit a b c d
    let (pieces, rest) ← scanPieces rest
    some (.unit n :: pieces, rest)
  | '\\' :: e :: rest => do
    let c ← escaped e
    let (pieces, rest) ← scanPieces rest
    some (.char c :: pieces, rest)
  | c :: rest => do
    if c.toNat < 0x20 || c = '\\' then none
    let (pieces, rest) ← scanPieces rest
    some (.char c :: pieces, rest)

/-- The text that pieces make. A unit below D800 or above DFFF is a character, and so are a
unit from D800 and one from DC00 together; any other unit is half a pair. -/
def joinPieces : List Piece → Option (List Char)
  | [] => some []
  | .char c :: rest => (joinPieces rest).map (c :: ·)
  | .unit n :: .unit m :: rest =>
    if 0xD800 ≤ n && n < 0xDC00 then
      if 0xDC00 ≤ m && m < 0xE000 then
        (joinPieces rest).map
          (Char.ofNat (0x10000 + (n - 0xD800) * 0x400 + (m - 0xDC00)) :: ·)
      else none
    else if 0xDC00 ≤ n && n < 0xE000 then none
    else (joinPieces (.unit m :: rest)).map (Char.ofNat n :: ·)
  | .unit n :: rest =>
    if 0xD800 ≤ n && n < 0xE000 then none else (joinPieces rest).map (Char.ofNat n :: ·)

def stringOfPieces (pieces : List Piece) : Scalar :=
  .string ((joinPieces pieces).map String.ofList)

/-- The digits at the front of a text, at least one, and the text after them. -/
def scanDigits (s : List Char) : Option (List Char × List Char) :=
  let ds := s.takeWhile Char.isDigit
  if ds.isEmpty then none else some (ds, s.dropWhile Char.isDigit)

/-- An exponent: its sign and digits, if the text begins with one. -/
def scanExponent : List Char → Option (Int × List Char)
  | 'e' :: rest | 'E' :: rest => do
    let (negative, rest) := match rest with
      | '+' :: rest => (false, rest)
      | '-' :: rest => (true, rest)
      | _ => (false, rest)
    let (ds, rest) ← scanDigits rest
    let n : Int := digitsValue ds
    some (if negative then -n else n, rest)
  | s => some (0, s)

/-- The number that leading digits denote after a number before them, as far as it stays below the
bound of 64 bits, and the digits from there on. -/
def significand (n : Nat) : List Char → Nat × List Char
  | [] => (n, [])
  | d :: rest =>
    if n * 10 + digitValue d < bound64 then significand (n * 10 + digitValue d) rest
    else (n, d :: rest)

/-- The greatest power of ten by which a number is multiplied or divided at once. -/
def maxPower : Nat := 308

def timesPower (x : Binary64) (n : Nat) : Binary64 :=
  match Binary64.ofDecimal false 1 n with
  | .finite _ significand exponent =>
    let (num, den) := Binary64.ratio significand exponent
    x.timesRatio num den
  | _ => x

def overPower (x : Binary64) (n : Nat) : Binary64 :=
  match Binary64.ofDecimal false 1 n with
  | .finite _ significand exponent =>
    let (num, den) := Binary64.ratio significand exponent
    x.timesRatio den num
  | _ => x

/-- A number divided by a power of ten in steps. After a few of them nothing is left of it. -/
def divided : Nat → Binary64 → Nat → Binary64
  | 0, x, n => overPower x (min n maxPower)
  | steps + 1, x, n =>
    if n ≤ maxPower then overPower x n else divided steps (overPower x maxPower) (n - maxPower)

/-- The number `n * 10 ^ exponent`, rounded at every step, if it is within the bounds. -/
def realOf (negative : Bool) (n : Nat) (exponent : Int) : Scalar :=
  let x := Binary64.ofRatio negative n 1
  if x.isZero then .real x
  else if exponent < 0 then .real (divided 3 x exponent.natAbs)
  else if maxPower < exponent.natAbs then .unbounded
  else
    let y := timesPower x exponent.natAbs
    if y.isFinite then .real y else .unbounded

/-- What a number of a text denotes. Digits that make its significand too great for 64 bits do not
count, but for their places before the point. -/
def numberOf (negative : Bool) (whole : List Char) (fraction : Option (List Char))
    (exponent : Option Int) : Scalar :=
  let n : Int := if negative then -(digitsValue whole : Int) else digitsValue whole
  if fraction.isNone && exponent.isNone && !(negative && n = 0) &&
      Int64.minValue.toInt ≤ n && n < bound64 then .integer n
  else
    let fraction := fraction.getD []
    let (n, dropped) := significand 0 whole
    let (n, rest) := significand n fraction
    realOf negative n (dropped.length - (fraction.length - rest.length) + exponent.getD 0)

/-- A number without its sign: no zero in front of other digits, digits after a point and in an
exponent. -/
def scanNumber (negative : Bool) (s : List Char) : Option (Scalar × List Char) := do
  let (whole, s) ← match s with
    | '0' :: rest => some (['0'], rest)
    | _ => scanDigits s
  let (fraction, s) ← match s with
    | '.' :: rest => (scanDigits rest).map fun (ds, rest) => (some ds, rest)
    | _ => some (none, s)
  let hasExponent := match s with
    | 'e' :: _ | 'E' :: _ => true
    | _ => false
  let (exponent, s) ← scanExponent s
  some (numberOf negative whole fraction (if hasExponent then some exponent else none), s)

/-- The token that begins with `c` and goes on in `rest`, and the text after it. -/
def scan (c : Char) (rest : List Char) : Option (Token × List Char) :=
  match c, rest with
  | '{', _ => some (.leftBrace, rest)
  | '}', _ => some (.rightBrace, rest)
  | '[', _ => some (.leftBracket, rest)
  | ']', _ => some (.rightBracket, rest)
  | ',', _ => some (.comma, rest)
  | ':', _ => some (.colon, rest)
  | '"', _ => (scanPieces rest).map fun (ps, rest) => (.scalar (stringOfPieces ps), rest)
  | 'n', 'u' :: 'l' :: 'l' :: rest => some (.scalar .null, rest)
  | 't', 'r' :: 'u' :: 'e' :: rest => some (.scalar (.bool true), rest)
  | 'f', 'a' :: 'l' :: 's' :: 'e' :: rest => some (.scalar (.bool false), rest)
  | '-', _ => (scanNumber true rest).map fun (n, rest) => (.scalar n, rest)
  | _, _ =>
    if c.isDigit then (scanNumber false (c :: rest)).map fun (n, rest) => (.scalar n, rest)
    else none

/-- The tokens of a text, at most `bound` of them. -/
def tokensUpTo : Nat → List Char → Option (List Token)
  | 0, _ => some []
  | _ + 1, [] => some []
  | bound + 1, c :: rest =>
    if isGap c then tokensUpTo bound rest
    else do
      let (token, rest) ← scan c rest
      let tokens ← tokensUpTo bound rest
      some (token :: tokens)

/-- The tokens of a text. Every token takes a character. -/
def tokens (s : List Char) : Option (List Token) := tokensUpTo s.length s

end TemporalDB.Json
