import TemporalDB.ScalarType
import TemporalDB.Instant.Reader

/-!
# Values

A value is null, an integer, a decimal, a text or an instant. `ScalarType.readValue` reads a value
of a type from text, `Value.text` writes one, and `Value.conforms` says which values a column of a
type may hold. Values have a total order, kind before content, by which keys are sorted.
-/

namespace TemporalDB

open Text

inductive Value where
  | null
  | integer (n : Int64)
  /-- The decimal `raw / 10 ^ scale`. -/
  | numeric (raw : Int64) (scale : UInt8)
  | text (s : String)
  | timestamp (t : Instant)
deriving DecidableEq

/-- The values of a relation's columns, in their order. -/
abbrev Row := List Value

/-- The values of a relation's key columns, in their order. -/
abbrev Key := List Value

namespace Decimal

def splitSign : List Char → Bool × List Char
  | '-' :: rest => (true, rest)
  | '+' :: rest => (false, rest)
  | s => (false, s)

/-- A number of 64 bits with another digit at its end. Neither the product nor the sum may leave the
64 bits. -/
def pushDigit (n : Int64) (d : Char) : Option Int64 := do
  let tens ← int64? (n.toInt * 10)
  int64? (tens.toInt + digitValue d)

/-- A decimal as an integer in units of its last place: an optional sign, then digits with at most
one point among them. There may be as many digits before the point as the precision leaves, zeros in
front not counted, and as many after it as the scale. -/
def read (precision scale : UInt8) (s : List Char) : Option Int64 := do
  let (negative, unsigned) := splitSign s
  let (whole, fraction) := (splitOnce '.' unsigned).getD (unsigned, [])
  if whole.isEmpty && fraction.isEmpty then none
  else if !(whole.all Char.isDigit && fraction.all Char.isDigit) then none
  else
    let significant := whole.dropWhile (· = '0')
    if precision.toNat - scale.toNat < significant.length || scale.toNat < fraction.length then none
    else
      let padded := fraction ++ List.replicate (scale.toNat - fraction.length) '0'
      let magnitude ← (significant ++ padded).foldlM pushDigit 0
      some (if negative then -magnitude else magnitude)

/-- A decimal with all the digits of its scale, and a point if the scale is not zero. -/
def text (raw : Int64) (scale : UInt8) : String :=
  if scale = 0 then showInt raw.toInt
  else
    let magnitude := raw.toInt.natAbs
    let unit := powerOfTen scale.toNat
    String.ofList ((if raw < 0 then ['-'] else []) ++ Nat.toDigits 10 (magnitude / unit) ++ ['.'] ++
      zeroPadded scale.toNat (magnitude % unit))

end Decimal

namespace Value

def display : Value → String
  | null => "NULL"
  | integer n => showInt n.toInt
  | numeric raw scale => Decimal.text raw scale
  | text s => s
  | timestamp t => t.text

/-- Whether a column of a type may hold a value, null aside: of a decimal type, the scale
counts. -/
def conforms : Value → ScalarType → Bool
  | null, _ => true
  | integer _, .integer => true
  | numeric _ scale, .numeric _ s => scale = s
  | text s, .char length => s.length ≤ length.toNat
  | text s, .varchar length => s.length ≤ length.toNat
  | timestamp _, .timestamp => true
  | _, _ => false

def rank : Value → Nat
  | null => 0
  | integer _ => 1
  | numeric .. => 2
  | text _ => 3
  | timestamp _ => 4

/-- The number by which values of one kind are ordered, if they are numbers or instants. -/
def measure : Value → Int
  | integer n => n.toInt
  | numeric raw _ => raw.toInt
  | timestamp t => t.ticks
  | _ => 0

def scale : Value → Nat
  | numeric _ s => s.toNat
  | _ => 0

def characters : Value → String
  | text s => s
  | _ => ""

/-- The order of values: by kind, then by content. Decimals go by their digits first and by scale
next, texts by code points. -/
instance : Ord Value :=
  ⟨compareLex (compareOn rank)
    (compareLex (compareOn measure) (compareLex (compareOn scale) (compareOn characters)))⟩

end Value

/-- Reads a value of a type. Blanks around numbers and instants do not count; a text is taken as it
is. -/
def ScalarType.readValue (type : ScalarType) (s : String) : Except ScalarError Value :=
  let invalid : Except ScalarError Value := .error (.invalidLiteral type s)
  match type with
  | .integer => (readInt64 (trim s.toList)).elim invalid fun n => .ok (.integer n)
  | .numeric precision scale =>
    (Decimal.read precision scale (trim s.toList)).elim invalid fun raw => .ok (.numeric raw scale)
  | .char length | .varchar length =>
    if length.toNat < s.length then .error (.valueTooLong type s) else .ok (.text s)
  | .timestamp => (Instant.read (trim s.toList)).elim invalid fun t => .ok (.timestamp t)

end TemporalDB
