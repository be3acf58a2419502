import TemporalDB.Setting.Json5

/-!
# Settings in RON

RON writes records with named fields in round brackets, lists in square ones and maps in braces. A
name in front of a record does not count, and what is optional is `None` or in `Some`.
`Setting.Ron.read` reads a text.
-/

namespace TemporalDB.Setting.Ron

open Text
open TemporalDB.Setting.Json5 (hexDigit hexNumber charOf)

def afterStars : Nat → List Char → Option (List Char)
  | depth, '/' :: '*' :: rest => afterStars (depth + 1) rest
  | 0, '*' :: '/' :: rest => some rest
  | depth + 1, '*' :: '/' :: rest => afterStars depth rest
  | depth, _ :: rest => afterStars depth rest
  | _, [] => none

def skip : Nat → List Char → List Char
  | 0, s => s
  | fuel + 1, s =>
    match s.dropWhile isBlank with
    | '/' :: '/' :: rest => skip fuel (rest.dropWhile (· ≠ '\n'))
    | '/' :: '*' :: rest =>
      match afterStars 0 rest with
      | some rest => skip fuel rest
      | none => '/' :: '*' :: rest
    | s => s

/-- What follows blanks and comments at the front of a text. -/
def next (s : List Char) : List Char := skip (s.length + 1) s

def inName (c : Char) : Bool := c.isAlphanum || c = '_'

def name (s : List Char) : List Char × List Char :=
  if s.head?.any fun c => c.isAlpha || c = '_' then (s.takeWhile inName, s.dropWhile inName)
  else ([], s)

/-- The character that a backslash stands for with what follows it, and the rest. -/
def readEscape : List Char → Option (Char × List Char)
  | '\'' :: rest => some ('\'', rest)
  | '"' :: rest => some ('"', rest)
  | '\\' :: rest => some ('\\', rest)
  | 'n' :: rest => some ('\n', rest)
  | 'r' :: rest => some ('\r', rest)
  | 't' :: rest => some ('\t', rest)
  | '0' :: rest => some ('\x00', rest)
  | 'x' :: rest => do
    let (n, rest) ← hexNumber 2 rest
    some (← charOf n, rest)
  | 'u' :: '\x7b' :: rest => do
    let ds := rest.takeWhile (· ≠ '\x7d')
    let (n, _) ← hexNumber ds.length ds
    if ds.isEmpty || 6 < ds.length then none else some (← charOf n, rest.drop (ds.length + 1))
  | _ => none

/-- The rest of a string in double quotes, and what follows it. -/
def readQuoted : Nat → List Char → Option (List Char × List Char)
  | 0, _ | _, [] => none
  | _ + 1, '"' :: rest => some ([], rest)
  | fuel + 1, '\\' :: rest => do
    let (c, rest) ← readEscape rest
    let (more, rest) ← readQuoted fuel rest
    some (c :: more, rest)
  | fuel + 1, c :: rest => do
    let (more, rest) ← readQuoted fuel rest
    some (c :: more, rest)

/-- The rest of a string in which backslashes have no meaning, up to its end, and what follows. -/
def readRaw (ending : List Char) : List Char → Option (List Char × List Char)
  | [] => none
  | c :: rest =>
    if ending.isPrefixOf (c :: rest) then some ([], (c :: rest).drop ending.length)
    else (readRaw ending rest).map fun (s, rest) => (c :: s, rest)

def readString : List Char → Option (List Char × List Char)
  | '"' :: rest => readQuoted (rest.length + 1) rest
  | 'r' :: rest =>
    let signs := rest.takeWhile (· = '#')
    match rest.drop signs.length with
    | '"' :: rest => readRaw ('"' :: signs) rest
    | _ => none
  | _ => none

def readChar : List Char → Option (Char × List Char)
  | '\'' :: '\\' :: rest => do
    let (c, rest) ← readEscape rest
    match rest with
    | '\'' :: rest => some (c, rest)
    | _ => none
  | '\'' :: c :: '\'' :: rest => some (c, rest)
  | _ => none

def digitsIn (base : Nat) (s : List Char) : Option Nat := do
  let ds ← (s.filter (· ≠ '_')).mapM hexDigit
  if s.head? = some '_' || ds.isEmpty || ds.any (base ≤ ·) then none
  else some (ds.foldl (fun n d => n * base + d) 0)

def magnitude : List Char → Option Nat
  | '0' :: 'x' :: ds => digitsIn 16 ds
  | '0' :: 'o' :: ds => digitsIn 8 ds
  | '0' :: 'b' :: ds => digitsIn 2 ds
  | ds => digitsIn 10 ds

def inNumber (c : Char) : Bool := (hexDigit c).isSome || "xo_.+-".toList.contains c

/-- A number, and what follows it. Integers that are too great for 64 bits are rounded. -/
def readNumber (s : List Char) : Option (Setting × List Char) := do
  let (sign, body) := match s with
    | '-' :: rest => (['-'], rest)
    | '+' :: rest => (['+'], rest)
    | _ => ([], s)
  let word := body.takeWhile inNumber
  let rest := body.drop word.length
  match magnitude word with
  | some n =>
    let n : Int := if sign = ['-'] then -(n : Int) else n
    some (if (int64? n).isSome then ofInt n else ofReal (.ofInt n), rest)
  | none => some (ofReal (← Binary64.read (sign ++ word.filter (· ≠ '_'))), rest)

mutual

def readValue : Nat → List Char → Option (Setting × List Char)
  | 0, _ => none
  | fuel + 1, s =>
    match s, name s with
    | '(' :: ')' :: rest, _ => some (nothing, rest)
    | '(' :: rest, _ => readParts fuel (next rest)
    | '[' :: rest, _ => do
      let (l, rest) ← readItems ']' fuel (next rest)
      some (list l, rest)
    | '\x7b' :: rest, _ => do
      let (es, rest) ← readEntries fuel [] (next rest)
      some (table es, rest)
    | '"' :: _, _ | 'r' :: '"' :: _, _ | 'r' :: '#' :: _, _ =>
      (readString s).map fun (t, rest) => (text (String.ofList t), rest)
    | '\'' :: _, _ => (readChar s).map fun (c, rest) => (text c.toString, rest)
    | '-' :: 'i' :: 'n' :: 'f' :: rest, _ => some (ofReal (.infinity true), rest)
    | _, ([], _) => readNumber s
    | _, (word, rest) =>
      match String.ofList word with
      | "true" => some (ofBool true, rest)
      | "false" => some (ofBool false, rest)
      | "None" => some (nothing, rest)
      | "inf" => some (ofReal (.infinity false), rest)
      | "NaN" => some (ofReal .nan, rest)
      | "Some" =>
        match next rest with
        | '(' :: rest => do
          let (l, rest) ← readItems ')' fuel (next rest)
          match l with
          | [s] => some (s, rest)
          | _ => none
        | _ => none
      | _ =>
        match next rest with
        | '(' :: rest => readParts fuel (next rest)
        | _ => some (nothing, rest)

/-- The parts of a record, with or without names, and what follows its bracket. -/
def readParts : Nat → List Char → Option (Setting × List Char)
  | 0, _ => none
  | fuel + 1, s =>
    let (word, rest) := name s
    if !word.isEmpty && (next rest).head? = some ':' then do
      let (es, rest) ← readFields fuel [] s
      some (table es, rest)
    else do
      let (l, rest) ← readItems ')' fuel s
      some (list l, rest)

def readItems (ending : Char) : Nat → List Char → Option (List Setting × List Char)
  | 0, _ | _, [] => none
  | fuel + 1, c :: rest =>
    if c = ending then some ([], rest)
    else do
      let (item, rest) ← readValue fuel (c :: rest)
      match next rest with
      | ',' :: rest => do
        let (l, rest) ← readItems ending fuel (next rest)
        some (item :: l, rest)
      | c :: rest => if c = ending then some ([item], rest) else none
      | [] => none

def readFields : Nat → List (String × Setting) → List Char →
    Option (List (String × Setting) × List Char)
  | 0, _, _ => none
  | fuel + 1, before, s =>
    match s, name s with
    | ')' :: rest, _ => some (before, rest)
    | _, (word, rest) =>
      match word, next rest with
      | _ :: _, ':' :: rest => do
        let (value, rest) ← readValue fuel (next rest)
        let es := put (String.ofList word) value before
        match next rest with
        | ',' :: rest => readFields fuel es (next rest)
        | ')' :: rest => some (es, rest)
        | _ => none
      | _, _ => none

/-- The entries of a map after those before them, and what follows its brace. Its keys are texts. -/
def readEntries : Nat → List (String × Setting) → List Char →
    Option (List (String × Setting) × List Char)
  | 0, _, _ => none
  | fuel + 1, before, s =>
    match s with
    | '\x7d' :: rest => some (before, rest)
    | _ => do
      match ← readValue fuel s with
      | (text key, rest) =>
        match next rest with
        | ':' :: rest => do
          let (value, rest) ← readValue fuel (next rest)
          let es := put key value before
          match next rest with
          | ',' :: rest => readEntries fuel es (next rest)
          | '\x7d' :: rest => some (es, rest)
          | _ => none
        | _ => none
      | _ => none

end

def skipExtensions (s : List Char) : Option (List Char) :=
  match s with
  | '#' :: '!' :: rest =>
    match rest.dropWhile (· ≠ ']') with
    | ']' :: rest => some (next rest)
    | _ => none
  | _ => some s

def read (s : String) : Option Setting := do
  let s ← skipExtensions (next s.toList)
  let (value, rest) ← readValue (s.length + 1) s
  if (next rest).isEmpty then some value else none

end TemporalDB.Setting.Ron
