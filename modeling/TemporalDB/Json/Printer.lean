import TemporalDB.Json
import TemporalDB.Text.Number

/-!
# Writing JSON

A value is written on lines of its own for every item and member, two blanks further in than its
container. An empty container stands on one line. In strings only the quote, the backslash and the
control characters are escaped.
-/

namespace TemporalDB.Json

open Text

def escape (c : Char) : List Char :=
  if c = '"' || c = '\\' then ['\\', c]
  else if c = '\x08' then ['\\', 'b']
  else if c = '\x0c' then ['\\', 'f']
  else if c = '\n' then ['\\', 'n']
  else if c = '\r' then ['\\', 'r']
  else if c = '\t' then ['\\', 't']
  else if c.toNat < 0x20 then
    ['\\', 'u', '0', '0', Nat.digitChar (c.toNat / 16), Nat.digitChar (c.toNat % 16)]
  else [c]

def writeString (s : String) : List Char := ['"'] ++ s.toList.flatMap escape ++ ['"']

/-- A line break, and the blanks in front of the next line. -/
def newLine (depth : Nat) : List Char := '\n' :: List.replicate (2 * depth) ' '

mutual

/-- A value that stands `depth` containers deep. Numbers that are not integers do not occur in what
is written. -/
def write (depth : Nat) : Json → List Char
  | null | real _ | undenoted => ['n', 'u', 'l', 'l']
  | bool true => ['t', 'r', 'u', 'e']
  | bool false => ['f', 'a', 'l', 's', 'e']
  | integer n => (showInt n).toList
  | string s => writeString s
  | array [] => ['[', ']']
  | array (j :: rest) =>
    ['['] ++ newLine (depth + 1) ++ write (depth + 1) j ++ writeItems (depth + 1) rest ++
      newLine depth ++ [']']
  | object [] => ['{', '}']
  | object (m :: rest) =>
    ['{'] ++ newLine (depth + 1) ++ writeMember (depth + 1) m ++
      writeMembers (depth + 1) rest ++ newLine depth ++ ['}']

def writeItems (depth : Nat) : List Json → List Char
  | [] => []
  | j :: rest => [','] ++ newLine depth ++ write depth j ++ writeItems depth rest

def writeMember (depth : Nat) : String × Json → List Char
  | (name, j) => writeString name ++ [':', ' '] ++ write depth j

def writeMembers (depth : Nat) : List (String × Json) → List Char
  | [] => []
  | m :: rest => [','] ++ newLine depth ++ writeMember depth m ++ writeMembers depth rest

end

def text (j : Json) : String := String.ofList (write 0 j)

end TemporalDB.Json
