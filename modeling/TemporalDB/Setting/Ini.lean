import TemporalDB.Setting

/-!
# Settings in INI files

A line gives a name a text, after an equals sign or a colon; a name in square brackets begins a
section, which is a table. Lines that begin with a semicolon or a number sign are comments. In texts
backslashes have a meaning, and quotes keep blanks. `Setting.Ini.read` reads a text.
-/

namespace TemporalDB.Setting.Ini

open Text

/-- The character of four digits in base sixteen after a backslash and an `x`, and what follows. -/
def readCode (s : List Char) : Option (Char × List Char) := do
  let isHex (c : Char) : Bool := c.isDigit || ('a' ≤ c.toLower && c.toLower ≤ 'f')
  let ds := s.take 4
  if ds.length = 4 && ds.all isHex then
    let n := ds.foldl (fun n c =>
      n * 16 + (if c.isDigit then digitValue c else c.toLower.toNat - 'a'.toNat + 10)) 0
    if n.isValidChar then some (Char.ofNat n, s.drop 4) else none
  else none

/-- What a backslash stands for with what follows it, and the rest. -/
def readEscape : List Char → Option (List Char × List Char)
  | '0' :: rest => some (['\x00'], rest)
  | 'a' :: rest => some (['\x07'], rest)
  | 'b' :: rest => some (['\x08'], rest)
  | 't' :: rest => some (['\t'], rest)
  | 'r' :: rest => some (['\r'], rest)
  | 'n' :: rest => some (['\n'], rest)
  | '\n' :: rest => some ([], rest)
  | 'x' :: rest => (readCode rest).map fun (c, rest) => ([c], rest)
  | c :: rest => some ([c], rest)
  | [] => none

/-- A text up to one of some characters, and what is left from there on. -/
def readUntil (ends : List Char) : Nat → List Char → Option (List Char × List Char)
  | 0, _ | _, [] => none
  | fuel + 1, c :: rest => do
    if ends.contains c then some ([], c :: rest)
    else if c = '\\' then
      let (s, rest) ← readEscape rest
      let (more, rest) ← readUntil ends fuel rest
      some (s ++ more, rest)
    else
      let (more, rest) ← readUntil ends fuel rest
      some (c :: more, rest)

def readToEnd : Nat → List Char → Option (List Char × List Char)
  | _, [] => some ([], [])
  | 0, _ => none
  | fuel + 1, c :: rest => do
    if c = '\n' || c = '\r' then some ([], c :: rest)
    else if c = '\\' then
      let (s, rest) ← readEscape rest
      let (more, rest) ← readToEnd fuel rest
      some (s ++ more, rest)
    else
      let (more, rest) ← readToEnd fuel rest
      some (c :: more, rest)

/-- The text of a line: pieces in quotes, and then all up to the end of the line. -/
def readText (first : Bool) : Nat → List Char → Option (List Char × List Char)
  | _, [] => some ([], [])
  | 0, _ => none
  | fuel + 1, c :: rest => do
    if c = '"' || c = '\'' then
      let (s, rest) ← readUntil [c] (rest.length + 1) rest
      let (more, rest) ← readText false fuel (rest.drop 1)
      some (s ++ more, rest)
    else
      let (s, rest) ← readToEnd (rest.length + 2) (c :: rest)
      some (if first then trim s else dropTrailingBlanks s, rest)

def isSpace (c : Char) : Bool := isBlank c && c ≠ '\n' && c ≠ '\r'

def close (name : Option String) (section_ all : List (String × Setting)) :
    List (String × Setting) :=
  match name with
  | some name => put name (table section_) all
  | none => section_.foldr (fun (n, s) all => put n s all) all

/-- Reads lines into the entries of a section and of what was closed before. A comment begins where
a line begins; the first line begins with the text. -/
def readLines (begun : Bool) (name : Option String) (current all : List (String × Setting)) :
    Nat → List Char → Option (List (String × Setting))
  | 0, _ => none
  | fuel + 1, s =>
    let atLine : Bool := match (s.takeWhile isBlank).getLast? with
      | some c => c = '\n'
      | none => begun
    match skipBlanks s with
    | [] => some (close name current all)
    | '[' :: rest => do
      let (s, rest) ← readUntil [']'] (rest.length + 1) rest
      let title := String.ofList (trim s)
      readLines false (some title) [] (close name current all) fuel (rest.drop 1)
    | c :: rest =>
      if c = ';' || c = '#' then
        if atLine then readLines false name current all fuel (rest.dropWhile (· ≠ '\n')) else none
      else do
        let (key, rest) ← readUntil ['=', ':'] (rest.length + 2) (c :: rest)
        let (value, rest) ← readText true (rest.length + 1) ((rest.drop 1).dropWhile isSpace)
        if (trim key).isEmpty then none
        else
          let entry := text (String.ofList value)
          readLines false name (put (String.ofList (trim key)) entry current) all fuel rest

def read (s : String) : Option Setting :=
  (readLines true none [] [] (s.length + 1) s.toList).map table

end TemporalDB.Setting.Ini
