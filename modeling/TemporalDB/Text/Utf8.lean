/-!
# Reading bytes that may not be UTF-8

Bytes are read as UTF-8 whatever they are: each longest run of bytes that begins a character
without completing it, and each byte that begins none, is read as something else, which is a
replacement character unless told otherwise.
-/

namespace TemporalDB.Text

/-- What is read for bytes that are no character. -/
def replacement : Char := '\uFFFD'

/-- How many bytes follow a first byte, and within which bounds the next one lies. -/
def continuation (first : Nat) : Option (Nat × Nat × Nat) :=
  if 0xC2 ≤ first && first ≤ 0xDF then some (1, 0x80, 0xBF)
  else if first = 0xE0 then some (2, 0xA0, 0xBF)
  else if first = 0xED then some (2, 0x80, 0x9F)
  else if 0xE1 ≤ first && first ≤ 0xEF then some (2, 0x80, 0xBF)
  else if first = 0xF0 then some (3, 0x90, 0xBF)
  else if 0xF1 ≤ first && first ≤ 0xF3 then some (3, 0x80, 0xBF)
  else if first = 0xF4 then some (3, 0x80, 0x8F)
  else none

/-- The number that a first byte contributes, before the bytes that follow it. -/
def leadingBits (first : Nat) : Nat :=
  if first < 0xE0 then first % 0x20 else if first < 0xF0 then first % 0x10 else first % 0x08

/-- Reads bytes, with the open character, if there is one: its number so far, how many bytes it
lacks and the bounds of the next. -/
def readBytes (bad : List Char) : Option (Nat × Nat × Nat × Nat) → List UInt8 → List Char
  | none, [] => []
  | some _, [] => bad
  | pending, b :: rest =>
    let begun (before : List Char) : List Char :=
      if b.toNat < 0x80 then before ++ Char.ofNat b.toNat :: readBytes bad none rest
      else match continuation b.toNat with
        | none => before ++ bad ++ readBytes bad none rest
        | some (lacking, low, high) =>
          before ++ readBytes bad (some (leadingBits b.toNat, lacking, low, high)) rest
    match pending with
    | none => begun []
    | some (n, lacking, low, high) =>
      if low ≤ b.toNat && b.toNat ≤ high then
        let n := n * 0x40 + b.toNat % 0x40
        if lacking = 1 then Char.ofNat n :: readBytes bad none rest
        else readBytes bad (some (n, lacking - 1, 0x80, 0xBF)) rest
      else begun bad

/-- The text that bytes are read as. -/
def ofBytes (bytes : ByteArray) : String :=
  String.ofList (readBytes [replacement] none bytes.toList)

end TemporalDB.Text
