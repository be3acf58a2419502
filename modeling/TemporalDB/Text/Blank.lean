import TemporalDB.Text.CharSet

/-!
# Blank characters, trimming and lines

Blank is the Unicode property White_Space. Trimming and skipping go by it everywhere: in SQL
text, in listings, in values and in table files. A line ends at a line feed, and a carriage
return just before that line feed belongs to the ending.
-/

namespace TemporalDB.Text

/-- The characters with the property White_Space. -/
def whiteSpace : CharSet := [
  (0x9, 0xD), (0x20, 0x20), (0x85, 0x85), (0xA0, 0xA0), (0x1680, 0x1680), (0x2000, 0x200A),
  (0x2028, 0x2029), (0x202F, 0x202F), (0x205F, 0x205F), (0x3000, 0x3000)]

def isBlank (c : Char) : Bool := whiteSpace.contains c

def skipBlanks (s : List Char) : List Char := s.dropWhile isBlank

def dropTrailingBlanks (s : List Char) : List Char := s.reverse.dropWhile isBlank |>.reverse

def trim (s : List Char) : List Char := dropTrailingBlanks (skipBlanks s)

def trimmed (s : String) : String := String.ofList (trim s.toList)

/-- The pieces between the occurrences of a separator; there is one more than there are
separators. -/
def splitAt (sep : Char) : List Char → List (List Char)
  | [] => [[]]
  | c :: rest =>
    if c = sep then [] :: splitAt sep rest
    else match splitAt sep rest with
      | [] => [[c]]
      | piece :: pieces => (c :: piece) :: pieces

/-- What stands before the first occurrence of a separator and what after it, if it occurs. -/
def splitOnce (sep : Char) : List Char → Option (List Char × List Char)
  | [] => none
  | c :: rest =>
    if c = sep then some ([], rest)
    else (splitOnce sep rest).map fun (before, after) => (c :: before, after)

def dropReturn (line : List Char) : List Char :=
  match line.reverse with
  | '\r' :: rest => rest.reverse
  | _ => line

/-- The pieces of a text at its line feeds, as lines: each but the last was ended by a line
feed, and the last is a line only if it has characters. -/
def linesOfPieces : List (List Char) → List (List Char)
  | [] => []
  | [last] => if last.isEmpty then [] else [last]
  | piece :: rest => dropReturn piece :: linesOfPieces rest

/-- The lines of a text. Nothing follows a final line feed, and a carriage return that no line
feed follows stays. -/
def lines (s : List Char) : List (List Char) := linesOfPieces (splitAt '\n' s)

end TemporalDB.Text
