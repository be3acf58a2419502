import TemporalDB.Text.Number

/-!
# Numbers in scripts

Where a script has a number, it stands after blanks and a sign. Its base is ten, or is told by how
it begins: eight after a zero, sixteen after `0x`. Integers have 64 bits.
-/

namespace TemporalDB.Shell

def isSpace (c : Char) : Bool := c = ' ' || (0x9 ≤ c.toNat && c.toNat ≤ 0xD)

def digitIn? (base : Nat) (c : Char) : Option Nat :=
  let n := if c.isDigit then c.toNat - '0'.toNat
    else if c.isAlpha then c.toLower.toNat - 'a'.toNat + 10 else base
  if n < base then some n else none

def digitsIn? (base : Nat) (s : List Char) : Option (Nat × List Char) :=
  let ds := s.takeWhile fun c => (digitIn? base c).isSome
  if ds.isEmpty then none
  else some (ds.foldl (fun n c => n * base + (digitIn? base c).getD 0) 0, s.drop ds.length)

/-- The number at the front of a text, whose beginning tells its base. -/
def natural? (s : List Char) : Option (Nat × List Char) :=
  match s with
  | '0' :: x :: rest =>
    if x = 'x' || x = 'X' then
      match digitsIn? 16 rest with
      | some found => some found
      | none => some (0, x :: rest)
    else digitsIn? 8 s
  | _ => digitsIn? 10 s

def leadingInteger (anyBase : Bool) (s : List Char) : Option (Int × List Char) :=
  let magnitude (s : List Char) := if anyBase then natural? s else digitsIn? 10 s
  match s.dropWhile isSpace with
  | '-' :: rest => (magnitude rest).map fun (n, rest) => (-(n : Int), rest)
  | '+' :: rest => (magnitude rest).map fun (n, rest) => ((n : Int), rest)
  | rest => (magnitude rest).map fun (n, rest) => ((n : Int), rest)

def clamped (n : Int) : Int64 :=
  if n < Int64.minValue.toInt then Int64.minValue
  else if Int64.maxValue.toInt < n then Int64.maxValue
  else Int64.ofInt n

/-- The integer that a text is, blanks around it apart. In an arithmetic expression a blank text
is zero. -/
def integer? (inArithmetic : Bool) (s : String) : Option Int64 :=
  let s := s.toList
  match leadingInteger inArithmetic s with
  | none => if inArithmetic && s.all isSpace then some 0 else none
  | some (n, rest) => if rest.all isSpace then Text.int64? n else none

def count? (s : String) : Option Nat := do
  let n ← integer? false s
  if 0 ≤ n && n.toInt < 0x80000000 then some n.toInt.toNat else none

end TemporalDB.Shell
