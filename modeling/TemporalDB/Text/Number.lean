/-!
# Numbers in text

An integer is an optional sign and at least one ASCII digit, and nothing else; it is read only if
it lies in the range that is asked for. Counts take no minus sign, not even before a zero.
-/

namespace TemporalDB.Text

def digitValue (c : Char) : Nat := c.toNat - '0'.toNat

def digitsValue (ds : List Char) : Nat := ds.foldl (fun n d => n * 10 + digitValue d) 0

/-- A natural number: digits, and at least one. -/
def readDigits (s : List Char) : Option Nat :=
  if !s.isEmpty && s.all Char.isDigit then some (digitsValue s) else none

/-- A count below `bound`, with a plus sign or without a sign. -/
def readCount (bound : Nat) (s : List Char) : Option Nat := do
  let n ← match s with
    | '+' :: rest => readDigits rest
    | _ => readDigits s
  if n < bound then some n else none

def readInteger (s : List Char) : Option Int :=
  match s with
  | '-' :: rest => (readDigits rest).map fun n => -(n : Int)
  | '+' :: rest => (readDigits rest).map Int.ofNat
  | _ => (readDigits s).map Int.ofNat

/-- The integer of 64 bits that equals `n`, if there is one. -/
def int64? (n : Int) : Option Int64 :=
  if Int64.minValue.toInt ≤ n ∧ n ≤ Int64.maxValue.toInt then some (Int64.ofInt n) else none

def readInt64 (s : List Char) : Option Int64 := (readInteger s).bind int64?

/-- One more than the largest count of 32 bits. -/
def bound32 : Nat := UInt32.size

/-- One more than the largest count of 64 bits. -/
def bound64 : Nat := UInt64.size

def powerOfTen (n : Nat) : Nat := Nat.pow 10 n

def zeroPadded (width : Nat) (n : Nat) : List Char :=
  let ds := Nat.toDigits 10 n
  List.replicate (width - ds.length) '0' ++ ds

def showInt (n : Int) : String :=
  String.ofList ((if n < 0 then ['-'] else []) ++ Nat.toDigits 10 n.natAbs)

def showNat (n : Nat) : String := String.ofList (Nat.toDigits 10 n)

end TemporalDB.Text
