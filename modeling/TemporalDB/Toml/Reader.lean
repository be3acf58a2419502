import TemporalDB.Toml.Scalar

/-!
# Reading TOML

A document is read line by line: an entry goes into the table of the last header. Values in
brackets may hold further values. `Toml.read` gives the table of a document, or nothing if the
document is not well formed.
-/

namespace TemporalDB.Toml

open Text

def skipSpaces (s : List Char) : List Char := s.dropWhile fun c => c = ' ' || c = '\t'

/-- Whether a character may stand in a comment or in a string on one line. -/
def isPlain (c : Char) : Bool := c = '\t' || (' ' ≤ c && c ≠ '\x7f')

def skipComment : List Char → Option (List Char)
  | '#' :: rest =>
    match rest.dropWhile isPlain with
    | '\r' :: '\n' :: rest => some ('\n' :: rest)
    | '\n' :: rest => some ('\n' :: rest)
    | [] => some []
    | _ => none
  | s => some s

def endLine (s : List Char) : Option (List Char) := do
  match ← skipComment (skipSpaces s) with
  | [] => some []
  | '\n' :: rest => some rest
  | '\r' :: '\n' :: rest => some rest
  | _ => none

/-- What follows spaces, line ends and comments. -/
def skipLayout : Nat → List Char → Option (List Char)
  | 0, _ => none
  | fuel + 1, s =>
    match skipSpaces s with
    | '\n' :: rest => skipLayout fuel rest
    | '\r' :: '\n' :: rest => skipLayout fuel rest
    | '#' :: rest => do skipLayout fuel (← skipComment ('#' :: rest))
    | s => some s

/-! ## Strings -/

/-- The character of a hexadecimal number of some digits, and what follows. -/
def readCodePoint (width : Nat) (s : List Char) : Option (Char × List Char) :=
  let digits := s.take width
  if digits.length = width && digits.all fun c => c.isDigit || ('a' ≤ c.toLower && c.toLower ≤ 'f')
  then
    let n := inBase 16 digits
    if n.isValidChar then some (Char.ofNat n, s.drop width) else none
  else none

/-- The character that a backslash stands for with what follows it, and the rest. -/
def readEscape : List Char → Option (Char × List Char)
  | 'b' :: rest => some ('\x08', rest)
  | 't' :: rest => some ('\t', rest)
  | 'n' :: rest => some ('\n', rest)
  | 'f' :: rest => some ('\x0c', rest)
  | 'r' :: rest => some ('\r', rest)
  | '"' :: rest => some ('"', rest)
  | '\\' :: rest => some ('\\', rest)
  | 'u' :: rest => readCodePoint 4 rest
  | 'U' :: rest => readCodePoint 8 rest
  | _ => none

/-- The rest of a string in double quotes, and what follows it. -/
def readBasic : Nat → List Char → Option (List Char × List Char)
  | 0, _ | _, [] => none
  | _ + 1, '"' :: rest => some ([], rest)
  | fuel + 1, '\\' :: rest => do
    let (c, rest) ← readEscape rest
    let (s, rest) ← readBasic fuel rest
    some (c :: s, rest)
  | fuel + 1, c :: rest =>
    if isPlain c then do
      let (s, rest) ← readBasic fuel rest
      some (c :: s, rest)
    else none

/-- The rest of a string in single quotes, and what follows it. -/
def readLiteral (s : List Char) : Option (List Char × List Char) :=
  let inner := s.takeWhile fun c => c ≠ '\'' && isPlain c
  match s.drop inner.length with
  | '\'' :: rest => some (inner, rest)
  | _ => none

/-- What follows the blanks and line ends after a backslash at the end of a line. -/
def skipFolded (s : List Char) : Option (List Char) := do
  match skipSpaces s with
  | '\n' :: rest => some (rest.dropWhile fun c => " \t\r\n".toList.contains c)
  | '\r' :: '\n' :: rest => some (rest.dropWhile fun c => " \t\r\n".toList.contains c)
  | _ => none

/-- The rest of a string in three quotes, and what follows it. Backslashes count in double quotes
only; up to two quotes may stand before the last three. -/
def readLong (quote : Char) : Nat → List Char → Option (List Char × List Char)
  | 0, _ | _, [] => none
  | fuel + 1, c :: rest =>
    let further (c : Char) (rest : List Char) : Option (List Char × List Char) := do
      let (s, rest) ← readLong quote fuel rest
      some (c :: s, rest)
    if c = quote then
      let run := (c :: rest).takeWhile (· = quote)
      if run.length < 3 then further c rest
      else if run.length ≤ 5 then
        some (List.replicate (run.length - 3) quote, (c :: rest).drop run.length)
      else none
    else if c = '\\' && quote = '"' then
      match skipFolded rest with
      | some rest => readLong quote fuel rest
      | none =>
        match readEscape rest with
        | some (c, rest) => further c rest
        | none => none
    else if c = '\n' || isPlain c then further c rest
    else if c = '\r' then
      match rest with
      | '\n' :: rest => further '\n' rest
      | _ => none
    else none

/-- What follows a line end right after opening quotes. -/
def skipFirstLine : List Char → List Char
  | '\n' :: rest => rest
  | '\r' :: '\n' :: rest => rest
  | s => s

def readString : List Char → Option (List Char × List Char)
  | '"' :: '"' :: '"' :: rest => readLong '"' (rest.length + 1) (skipFirstLine rest)
  | '\'' :: '\'' :: '\'' :: rest => readLong '\'' (rest.length + 1) (skipFirstLine rest)
  | '"' :: rest => readBasic (rest.length + 1) rest
  | '\'' :: rest => readLiteral rest
  | _ => none

/-! ## Names -/

def inBareName (c : Char) : Bool := c.isAlphanum || c = '_' || c = '-'

def readName : List Char → Option (String × List Char)
  | '"' :: rest => do
    let (s, rest) ← readBasic (rest.length + 1) rest
    some (String.ofList s, rest)
  | '\'' :: rest => do
    let (s, rest) ← readLiteral rest
    some (String.ofList s, rest)
  | s =>
    let name := s.takeWhile inBareName
    if name.isEmpty then none else some (String.ofList name, s.drop name.length)

/-- The depth that names joined by dots, and values in brackets, must stay below. -/
def depthBound : Nat := 80

/-- Names joined by dots: those before the last one, the last one, and what follows. -/
def readJoined : Nat → List Char → Option (List String × String × List Char)
  | 0, _ => none
  | fuel + 1, s => do
    let (name, rest) ← readName (skipSpaces s)
    match skipSpaces rest with
    | '.' :: rest => do
      let (path, last, rest) ← readJoined fuel rest
      some (name :: path, last, rest)
    | rest => some ([], name, rest)

def readNames (s : List Char) : Option (List String × String × List Char) :=
  (readJoined (s.length + 1) s).filter fun (path, _) => path.length + 1 < depthBound

/-! ## Values -/

def inScalar (c : Char) : Bool := c.isAlphanum || "+-_.:".toList.contains c

/-- A scalar without quotes, and what follows it. A space may stand between a date and a time. -/
def readScalar (s : List Char) : Option (Toml × List Char) := do
  let token := s.takeWhile inScalar
  let rest := s.drop token.length
  let token := match rest with
    | ' ' :: c :: more =>
      if (date? token).any (·.2.isEmpty) && c.isDigit then
        token ++ ' ' :: (c :: more).takeWhile inScalar
      else token
    | _ => token
  some (← scalar? token, s.drop token.length)

mutual

/-- A value that stands in some brackets, and what follows it. -/
def readValue (depth : Nat) : Nat → List Char → Option (Toml × List Char)
  | 0, _ => none
  | fuel + 1, '[' :: rest => do
    if depth + 1 < depthBound then
      let (items, rest) ← readItems (depth + 1) fuel rest
      some (.list items, rest)
    else none
  | fuel + 1, '\x7b' :: rest =>
    if depth + 1 < depthBound then
      match skipSpaces rest with
      | '\x7d' :: rest => some (.inline [], rest)
      | rest => do
        let (t, rest) ← readEntries (depth + 1) fuel (.table false false []) rest
        match t with
        | .table _ _ entries => some (.inline entries, rest)
        | _ => none
    else none
  | _ + 1, s =>
    if s.head? = some '"' || s.head? = some '\'' then do
      let (content, rest) ← readString s
      some (.text (String.ofList content), rest)
    else readScalar s

def readItems (depth : Nat) : Nat → List Char → Option (List Toml × List Char)
  | 0, _ => none
  | fuel + 1, s => do
    match ← skipLayout (s.length + 1) s with
    | ']' :: rest => some ([], rest)
    | s => do
      let (item, rest) ← readValue depth fuel s
      match ← skipLayout (rest.length + 1) rest with
      | ',' :: rest => do
        let (items, rest) ← readItems depth fuel rest
        some (item :: items, rest)
      | ']' :: rest => some ([item], rest)
      | _ => none

def readEntries (depth : Nat) : Nat → Toml → List Char → Option (Toml × List Char)
  | 0, _, _ => none
  | fuel + 1, t, s => do
    let (path, name, rest) ← readNames s
    let (value, rest) ← readValue depth fuel (skipSpaces (← expect '=' rest))
    let t ← define path name value t
    match skipSpaces rest with
    | ',' :: rest => readEntries depth fuel t rest
    | '\x7d' :: rest => some (t, rest)
    | _ => none

end

/-! ## Documents -/

/-- A header: its names, whether its brackets are double, and what follows it. -/
def readHeader : List Char → Option (Bool × List String × String × List Char)
  | '[' :: '[' :: rest => do
    let (path, name, rest) ← readNames rest
    some (true, path, name, ← endLine (← expect ']' (← expect ']' rest)))
  | '[' :: rest => do
    let (path, name, rest) ← readNames rest
    some (false, path, name, ← endLine (← expect ']' rest))
  | _ => none

/-- Reads the lines of a document into a table. The entries go to the table that names lead to. -/
def readLines (current : List String) (t : Toml) : Nat → List Char → Option Toml
  | 0, _ => none
  | fuel + 1, s => do
    match ← skipLayout (s.length + 1) s with
    | [] => some t
    | '[' :: rest => do
      let (double, path, name, rest) ← readHeader ('[' :: rest)
      let t ← if double then openElement path name t else openTable path name t
      readLines (path ++ [name]) t fuel rest
    | s => do
      let (path, name, rest) ← readNames s
      let (value, rest) ← readValue 0 (rest.length + 1) (skipSpaces (← expect '=' rest))
      let t ← at? false (define path name value) current t
      readLines current t fuel (← endLine rest)

def read (text : String) : Option (List (String × Toml)) := do
  let s := text.toList
  match ← readLines [] (.table false false []) (s.length + 1) s with
  | .table _ _ entries => some entries
  | _ => none

end TemporalDB.Toml
