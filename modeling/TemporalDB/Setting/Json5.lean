import TemporalDB.Setting
import TemporalDB.Text.Letter

/-!
# Settings in JSON5

JSON5 is JSON with comments, names without quotes, strings in single quotes, commas after the last
item, and more forms of numbers. `Setting.Json5.read` reads a text.
-/

namespace TemporalDB.Setting.Json5

open Text

def endsLine (c : Char) : Bool := c = '\n' || c = '\r' || c = '\u2028' || c = '\u2029'

def isGap (c : Char) : Bool := (isBlank c && c ≠ '\u0085') || c = '\uFEFF'

def afterStars : List Char → Option (List Char)
  | '*' :: '/' :: rest => some rest
  | _ :: rest => afterStars rest
  | [] => none

def skip : Nat → List Char → List Char
  | 0, s => s
  | fuel + 1, s =>
    match s.dropWhile isGap with
    | '/' :: '/' :: rest => skip fuel (rest.dropWhile (!endsLine ·))
    | '/' :: '*' :: rest =>
      match afterStars rest with
      | some rest => skip fuel rest
      | none => '/' :: '*' :: rest
    | s => s

/-- What follows blanks and comments at the front of a text. -/
def next (s : List Char) : List Char := skip (s.length + 1) s

def hexDigit (c : Char) : Option Nat :=
  if c.isDigit then some (digitValue c)
  else if 'a' ≤ c.toLower && c.toLower ≤ 'f' then some (c.toLower.toNat - 'a'.toNat + 10)
  else none

/-- The number of so many digits in base sixteen, and what follows them. -/
def hexNumber (width : Nat) (s : List Char) : Option (Nat × List Char) := do
  if s.length < width then none
  let ds ← (s.take width).mapM hexDigit
  some (ds.foldl (fun n d => n * 16 + d) 0, s.drop width)

def charOf (n : Nat) : Option Char := if n.isValidChar then some (Char.ofNat n) else none

/-- The character after a backslash and a `u`: four digits, or two times four for a pair. -/
def readUnit (s : List Char) : Option (Char × List Char) := do
  let (high, rest) ← hexNumber 4 s
  if 0xD800 ≤ high && high < 0xDC00 then
    match rest with
    | '\\' :: 'u' :: rest => do
      let (low, rest) ← hexNumber 4 rest
      if 0xDC00 ≤ low && low < 0xE000 then
        some (← charOf (0x10000 + (high - 0xD800) * 0x400 + (low - 0xDC00)), rest)
      else none
    | _ => none
  else some (← charOf high, rest)

/-- What a backslash stands for with what follows it, and the rest. -/
def readEscape : List Char → Option (List Char × List Char)
  | 'b' :: rest => some (['\x08'], rest)
  | 'f' :: rest => some (['\x0c'], rest)
  | 'n' :: rest => some (['\n'], rest)
  | 'r' :: rest => some (['\r'], rest)
  | 't' :: rest => some (['\t'], rest)
  | 'v' :: rest => some (['\x0b'], rest)
  | '0' :: rest => some (['\x00'], rest)
  | 'x' :: rest => do
    let (n, rest) ← hexNumber 2 rest
    some ([Char.ofNat n], rest)
  | 'u' :: rest => do
    let (c, rest) ← readUnit rest
    some ([c], rest)
  | '\r' :: '\n' :: rest => some ([], rest)
  | c :: rest =>
    if endsLine c then some ([], rest) else if c.isDigit then none else some ([c], rest)
  | [] => none

/-- The rest of a string, and what follows its closing quote. -/
def readQuoted (quote : Char) : Nat → List Char → Option (List Char × List Char)
  | 0, _ | _, [] => none
  | fuel + 1, c :: rest => do
    if c = quote then some ([], rest)
    else if c = '\\' then
      let (s, rest) ← readEscape rest
      let (more, rest) ← readQuoted quote fuel rest
      some (s ++ more, rest)
    else if endsLine c then none
    else
      let (more, rest) ← readQuoted quote fuel rest
      some (c :: more, rest)

def beginsName (c : Char) : Bool := isAlphabetic c || c = '$' || c = '_'

def continuesName (c : Char) : Bool :=
  isAlphanumeric c || c = '$' || c = '_' || c = '\u200C' || c = '\u200D'

/-- The rest of a name without quotes, and what follows it. -/
def readRest : Nat → List Char → Option (List Char × List Char)
  | 0, s => some ([], s)
  | fuel + 1, '\\' :: 'u' :: rest => do
    let (c, rest) ← readUnit rest
    let (more, rest) ← readRest fuel rest
    some (c :: more, rest)
  | fuel + 1, c :: rest => do
    if continuesName c then
      let (more, rest) ← readRest fuel rest
      some (c :: more, rest)
    else some ([], c :: rest)
  | _, [] => some ([], [])

def readName : List Char → Option (String × List Char)
  | '"' :: rest => (readQuoted '"' (rest.length + 1) rest).map fun (s, r) => (String.ofList s, r)
  | '\'' :: rest => (readQuoted '\'' (rest.length + 1) rest).map fun (s, r) => (String.ofList s, r)
  | s =>
    if s.head?.any beginsName || ['\\', 'u'].isPrefixOf s then
      (readRest (s.length + 1) s).map fun (name, rest) => (String.ofList name, rest)
    else none

def digits (s : List Char) : List Char × List Char :=
  (s.takeWhile Char.isDigit, s.dropWhile Char.isDigit)

/-- An exponent, and what follows it; nothing, if there is none. -/
def exponent (s : List Char) : List Char × List Char :=
  match s with
  | e :: rest =>
    let (sign, after) := match rest with
      | '+' :: after => (['+'], after)
      | '-' :: after => (['-'], after)
      | _ => ([], rest)
    let (ds, after) := digits after
    if e.toLower = 'e' && !ds.isEmpty then (e :: sign ++ ds, after) else ([], s)
  | [] => ([], [])

/-- The characters of a number in base ten without its sign, and what follows it. -/
def decimal (s : List Char) : Option (List Char × List Char) :=
  let (whole, rest) := match s with
    | '0' :: rest => (['0'], rest)
    | _ => digits s
  match whole, rest with
  | [], '.' :: rest =>
    let (fraction, rest) := digits rest
    let (e, rest) := exponent rest
    if fraction.isEmpty then none else some ('.' :: fraction ++ e, rest)
  | [], _ => none
  | _, '.' :: rest =>
    let (fraction, rest) := digits rest
    let (e, rest) := exponent rest
    some (whole ++ '.' :: fraction ++ e, rest)
  | _, _ =>
    let (e, rest) := exponent rest
    some (whole ++ e, rest)

/-- The number with a sign and the characters of a number. It is an integer of 64 bits if it has
neither a point nor an exponent, and finite otherwise. -/
def ofDigits (sign body : List Char) : Option Setting :=
  if body.any fun c => c = '.' || c.toLower = 'e' then
    ((Binary64.read (sign ++ body)).filter Binary64.isFinite).map ofReal
  else (readInt64 (sign ++ body)).map fun n => ofInt n.toInt

/-- A number, and what follows it. Only numbers without a sign are read in base sixteen, and
infinity has no plus sign. -/
def readNumber (s : List Char) : Option (Setting × List Char) :=
  let (sign, body) := match s with
    | '+' :: rest => (['+'], rest)
    | '-' :: rest => (['-'], rest)
    | _ => ([], s)
  match body with
  | '0' :: x :: rest =>
    let ds := rest.takeWhile fun c => (hexDigit c).isSome
    if x.toLower = 'x' && !ds.isEmpty then do
      let (n, rest) ← hexNumber ds.length rest
      if sign.isEmpty && n < bound32 then some (ofInt n, rest) else none
    else do
      let (ds, rest) ← decimal body
      some (← ofDigits sign ds, rest)
  | 'I' :: 'n' :: 'f' :: 'i' :: 'n' :: 'i' :: 't' :: 'y' :: rest =>
    if sign = ['+'] then none else some (ofReal (.infinity (sign = ['-'])), rest)
  | 'N' :: 'a' :: 'N' :: rest => if sign = ['+'] then none else some (ofReal .nan, rest)
  | _ => do
    let (ds, rest) ← decimal body
    some (← ofDigits sign ds, rest)

mutual

def readValue : Nat → List Char → Option (Setting × List Char)
  | 0, _ => none
  | fuel + 1, s =>
    match s with
    | 'n' :: 'u' :: 'l' :: 'l' :: rest => some (nothing, rest)
    | 't' :: 'r' :: 'u' :: 'e' :: rest => some (ofBool true, rest)
    | 'f' :: 'a' :: 'l' :: 's' :: 'e' :: rest => some (ofBool false, rest)
    | '"' :: rest =>
      (readQuoted '"' (rest.length + 1) rest).map fun (s, r) => (text (String.ofList s), r)
    | '\'' :: rest =>
      (readQuoted '\'' (rest.length + 1) rest).map fun (s, r) => (text (String.ofList s), r)
    | '[' :: rest =>
      match next rest with
      | ']' :: rest => some (list [], rest)
      | rest => do
        let (l, rest) ← readItems fuel rest
        some (list l, rest)
    | '\x7b' :: rest =>
      match next rest with
      | '\x7d' :: rest => some (table [], rest)
      | rest => do
        let (es, rest) ← readMembers fuel [] rest
        some (table es, rest)
    | _ => readNumber s

def readItems : Nat → List Char → Option (List Setting × List Char)
  | 0, _ => none
  | fuel + 1, s => do
    let (item, rest) ← readValue fuel s
    match next rest with
    | ',' :: rest =>
      match next rest with
      | ']' :: rest => some ([item], rest)
      | rest => do
        let (l, rest) ← readItems fuel rest
        some (item :: l, rest)
    | ']' :: rest => some ([item], rest)
    | _ => none

def readMembers : Nat → List (String × Setting) → List Char →
    Option (List (String × Setting) × List Char)
  | 0, _, _ => none
  | fuel + 1, before, s => do
    let (name, rest) ← readName s
    match next rest with
    | ':' :: rest => do
      let (value, rest) ← readValue fuel (next rest)
      let es := put name value before
      match next rest with
      | ',' :: rest =>
        match next rest with
        | '\x7d' :: rest => some (es, rest)
        | rest => readMembers fuel es rest
      | '\x7d' :: rest => some (es, rest)
      | _ => none
    | _ => none

end

def read (s : String) : Option Setting := do
  let s := next s.toList
  let (value, rest) ← readValue (s.length + 1) s
  if (next rest).isEmpty then some value else none

end TemporalDB.Setting.Json5
