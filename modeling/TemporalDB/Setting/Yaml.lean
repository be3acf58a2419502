import TemporalDB.Setting.Json5

/-!
# Settings in YAML

YAML tells by the blanks in front of a line what it belongs to. Entries have a colon after their
name, items a hyphen in front; texts may be plain, in quotes, or in lines of their own after a bar
or a greater sign; lists and tables may also stand in brackets. `Setting.Yaml.read` reads a text.
Anchors and tags are not known.
-/

namespace TemporalDB.Setting.Yaml

open Text
open TemporalDB.Setting.Json5 (hexNumber charOf)

/-- A line: the blanks in front of it, and what follows them. -/
structure Line where
  indent : Nat
  body : List Char

def lineOf (s : List Char) : Line :=
  let indent := (s.takeWhile (· = ' ')).length
  ⟨indent, s.drop indent⟩

def Line.chars (l : Line) : List Char := List.replicate l.indent ' ' ++ l.body

def isSpace (c : Char) : Bool := c = ' ' || c = '\t'

def trimEnd (s : List Char) : List Char := (s.reverse.dropWhile isSpace).reverse

def isVoid (s : List Char) : Bool :=
  match s.dropWhile isSpace with
  | [] | '#' :: _ => true
  | _ => false

def content (ls : List Line) : List Line := ls.dropWhile fun l => isVoid l.body

/-! ## Scalars -/

def inBase (digit : Char → Option Nat) (base : Nat) (s : List Char) : Option Setting := do
  let (negative, ds) := match s with
    | '-' :: ds => (true, ds)
    | '+' :: ds => (false, ds)
    | _ => (false, s)
  let ds ← ds.mapM digit
  if ds.isEmpty || ds.any (base ≤ ·) then none
  let n : Nat := ds.foldl (fun n d => n * base + d) 0
  let n : Int := if negative then -(n : Int) else n
  (int64? n).map fun _ => ofInt n

/-- The setting that a plain scalar is. Some words for numbers that are not finite are read as
numbers and cannot be taken for any. -/
def plain (s : List Char) : Option Setting :=
  let word := String.ofList s
  let integer := match s with
    | '0' :: 'x' :: ds => inBase Json5.hexDigit 16 ds
    | '0' :: 'o' :: ds => inBase Json5.hexDigit 8 ds
    | _ => (readInt64 s).map fun n => ofInt n.toInt
  if ["", "~", "null"].contains word then some nothing
  else if word = "true" then some (ofBool true)
  else if word = "false" then some (ofBool false)
  else if [".inf", ".Inf", ".INF", "+.inf", "+.Inf", "+.INF", "-.inf", "-.Inf", "-.INF", ".nan",
    ".NAN"].contains word then none
  else if integer.isSome then integer
  else
    match (if s.any Char.isDigit || word = "NaN" then Binary64.read s else none) with
    | some x => some (ofReal x)
    | none => some (text word)

/-- What a backslash stands for with what follows it, and the rest. -/
def readEscape : List Char → Option (List Char × List Char)
  | '0' :: rest => some (['\x00'], rest)
  | 'a' :: rest => some (['\x07'], rest)
  | 'b' :: rest => some (['\x08'], rest)
  | 't' :: rest | '\t' :: rest => some (['\t'], rest)
  | 'n' :: rest => some (['\n'], rest)
  | 'v' :: rest => some (['\x0b'], rest)
  | 'f' :: rest => some (['\x0c'], rest)
  | 'r' :: rest => some (['\r'], rest)
  | 'e' :: rest => some (['\x1b'], rest)
  | ' ' :: rest => some ([' '], rest)
  | '"' :: rest => some (['"'], rest)
  | '/' :: rest => some (['/'], rest)
  | '\\' :: rest => some (['\\'], rest)
  | 'N' :: rest => some (['\u0085'], rest)
  | '_' :: rest => some (['\u00A0'], rest)
  | 'L' :: rest => some (['\u2028'], rest)
  | 'P' :: rest => some (['\u2029'], rest)
  | 'x' :: rest => code 2 rest
  | 'u' :: rest => code 4 rest
  | 'U' :: rest => code 8 rest
  | '\n' :: rest => some ([], rest.dropWhile isSpace)
  | _ => none
where
  /-- The character of a number with so many digits. -/
  code (width : Nat) (s : List Char) : Option (List Char × List Char) := do
    let (n, rest) ← hexNumber width s
    some ([← charOf n], rest)

/-- A line end and the blanks around it, as they count within a text: one is a space, and of more
all but one stay. -/
def fold (s : List Char) : List Char × List Char :=
  let gap := s.takeWhile fun c => isSpace c || c = '\n'
  let ends := gap.count '\n'
  (if ends = 1 then [' '] else List.replicate (ends - 1) '\n', s.drop gap.length)

/-- The rest of a text in quotes, and what follows it. -/
def readQuoted (quote : Char) : Nat → List Char → Option (List Char × List Char)
  | 0, _ | _, [] => none
  | fuel + 1, c :: rest => do
    let gap := (c :: rest).takeWhile fun c => isSpace c || c = '\n'
    if gap.contains '\n' then
      let (s, rest) := fold (c :: rest)
      let (more, rest) ← readQuoted quote fuel rest
      some (s ++ more, rest)
    else if c = quote then
      if quote = '\'' && rest.head? = some '\'' then
        let (more, rest) ← readQuoted quote fuel (rest.drop 1)
        some ('\'' :: more, rest)
      else some ([], rest)
    else if c = '\\' && quote = '"' then
      let (s, rest) ← readEscape rest
      let (more, rest) ← readQuoted quote fuel rest
      some (s ++ more, rest)
    else
      let (more, rest) ← readQuoted quote fuel rest
      some (c :: more, rest)

def isIndicator (c : Char) : Bool := ",[]\x7b\x7d#&*!|>'\"%@\x60".toList.contains c

def beginsPlain (s : List Char) : Bool :=
  match s with
  | c :: rest =>
    if c = '-' || c = '?' || c = ':' then rest.head?.any fun d => !isSpace d && d ≠ '\n'
    else !isIndicator c && !isSpace c && c ≠ '\n'
  | [] => false

/-- The part of a line that belongs to a plain scalar, and what follows it: a comment, a colon after
a name, or in brackets what separates items. -/
def plainPart (inner : Bool) : List Char → List Char × List Char
  | [] => ([], [])
  | c :: rest =>
    let stops := c = '\n' || (isSpace c && rest.head? = some '#') ||
      (c = ':' && rest.head?.all fun d => isSpace d || d = '\n' ||
        (inner && ",[]\x7b\x7d".toList.contains d)) ||
      (inner && ",[]\x7b\x7d".toList.contains c)
    if stops then ([], c :: rest)
    else
      let (s, rest) := plainPart inner rest
      (c :: s, rest)

/-! ## Values in brackets -/

/-- What follows blanks, line ends and comments. -/
def skip : Nat → List Char → List Char
  | 0, s => s
  | fuel + 1, s =>
    match s.dropWhile fun c => isSpace c || c = '\n' with
    | '#' :: rest => skip fuel (rest.dropWhile (· ≠ '\n'))
    | s => s

/-- What follows blanks, line ends and comments at the front of a text. -/
def next (s : List Char) : List Char := skip (s.length + 1) s

/-- The further lines of a plain scalar in brackets, and what follows it. -/
def plainLines : Nat → List Char → List Char × List Char
  | 0, s => ([], s)
  | fuel + 1, s =>
    let (part, rest) := plainPart true s
    let gap := rest.takeWhile fun c => isSpace c || c = '\n'
    let after := rest.drop gap.length
    if gap.contains '\n' && after.head?.any fun c =>
        c ≠ '#' && c ≠ ':' && !",[]\x7b\x7d".toList.contains c then
      let (more, rest) := plainLines fuel after
      (trimEnd part ++ ' ' :: more, rest)
    else (trimEnd part, rest)

/-- A scalar in brackets: its text, whether it is plain, and what follows it. -/
def readScalar (s : List Char) : Option (List Char × Bool × List Char) :=
  match s with
  | '"' :: rest => (readQuoted '"' (rest.length + 1) rest).map fun (t, rest) => (t, false, rest)
  | '\'' :: rest => (readQuoted '\'' (rest.length + 1) rest).map fun (t, rest) => (t, false, rest)
  | _ =>
    if beginsPlain s then
      let (t, rest) := plainLines (s.length + 1) s
      some (t, true, rest)
    else none

def ofScalar (t : List Char) (isPlain : Bool) : Option Setting :=
  if isPlain then plain t else some (text (String.ofList t))

/-- The name of an entry. Only texts and integers are names. -/
def nameOf (t : List Char) (isPlain : Bool) : Option String := do
  match ← ofScalar t isPlain with
  | text s => some s
  | scalar shown _ => if (readInteger shown.toList).isSome then some shown else none
  | _ => none

def add (name : String) (s : Setting) (entries : List (String × Setting)) :
    Option (List (String × Setting)) :=
  if (lookup name entries).isSome then none else some (put name s entries)

mutual

def readFlow : Nat → List Char → Option (Setting × List Char)
  | 0, _ => none
  | fuel + 1, s =>
    match s with
    | '[' :: rest => do
      let (l, rest) ← readItems fuel (next rest)
      some (list l, rest)
    | '\x7b' :: rest => do
      let (es, rest) ← readEntries fuel [] (next rest)
      some (table es, rest)
    | _ => do
      let (t, isPlain, rest) ← readScalar s
      some (← ofScalar t isPlain, rest)

/-- The items up to a bracket, and what follows that. An item may be a table of one entry. -/
def readItems : Nat → List Char → Option (List Setting × List Char)
  | 0, _ => none
  | fuel + 1, s => do
    match s with
    | ']' :: rest => some ([], rest)
    | _ =>
      let (item, rest) ← readFlow fuel s
      let (item, rest) ← match item, next rest with
        | text name, ':' :: rest => do
          let (value, rest) ← readFlow fuel (next rest)
          some (table [(name, value)], rest)
        | item, rest => some (item, rest)
      match next rest with
      | ',' :: rest => do
        let (l, rest) ← readItems fuel (next rest)
        some (item :: l, rest)
      | ']' :: rest => some ([item], rest)
      | _ => none

def readEntries : Nat → List (String × Setting) → List Char →
    Option (List (String × Setting) × List Char)
  | 0, _, _ => none
  | fuel + 1, before, s => do
    match s with
    | '\x7d' :: rest => some (before, rest)
    | _ =>
      let (t, isPlain, rest) ← readScalar s
      let name ← nameOf t isPlain
      let (value, rest) ← match next rest with
        | ':' :: rest =>
          match next rest with
          | ',' :: rest => some (nothing, ',' :: rest)
          | '\x7d' :: rest => some (nothing, '\x7d' :: rest)
          | rest => readFlow fuel rest
        | rest => some (nothing, rest)
      let es ← add name value before
      match next rest with
      | ',' :: rest => readEntries fuel es (next rest)
      | '\x7d' :: rest => some (es, rest)
      | _ => none

end

/-! ## Values in lines -/

def joined (body : List Char) (ls : List Line) : List Char :=
  body ++ ls.flatMap fun l => '\n' :: l.chars

/-- The lines after a value that ended within a line, if nothing else stands on that. -/
def linesAfter (rest : List Char) : Option (List Line) :=
  match splitAt '\n' rest with
  | [] => some []
  | first :: others =>
    if isVoid first && (first.isEmpty || first.head?.any isSpace) then some (others.map lineOf)
    else none

/-- The name at the front of a line that is an entry, and what follows its colon. -/
def entryOf (body : List Char) : Option (String × List Char) := do
  let (t, isPlain, rest) ← match body with
    | '"' :: rest => (readQuoted '"' (rest.length + 1) rest).map fun (t, rest) => (t, false, rest)
    | '\'' :: rest => (readQuoted '\'' (rest.length + 1) rest).map fun (t, rest) => (t, false, rest)
    | _ =>
      if beginsPlain body then
        let (t, rest) := plainPart false body
        some (trimEnd t, true, rest)
      else none
  match rest.dropWhile isSpace with
  | ':' :: rest =>
    if rest.head?.all isSpace then some (← nameOf t isPlain, rest.dropWhile isSpace) else none
  | _ => none

def itemOf (body : List Char) : Option (List Char) :=
  match body with
  | '-' :: rest => if rest.head?.all isSpace then some rest else none
  | _ => none

/-- The further lines of a plain scalar, which are further in than a line, and the lines after it.
Void lines in between stay line ends, but for the first. -/
def plainFurther (indent : Int) : Nat → List Line → List Char × List Line
  | 0, ls => ([], ls)
  | fuel + 1, ls =>
    let blank := ls.takeWhile fun l => l.body.all isSpace
    match ls.drop blank.length with
    | [] => ([], ls)
    | l :: rest =>
      let (part, after) := plainPart false l.body
      if indent < l.indent && l.body.head? ≠ some '#' && isVoid after then
        let gap := if blank.isEmpty then [' '] else List.replicate blank.length '\n'
        let (more, rest) :=
          if after.isEmpty then plainFurther indent fuel rest else ([], rest)
        (gap ++ trimEnd part ++ more, rest)
      else ([], ls)

/-- How the end of a text in lines is kept. -/
inductive Keep where
  | none
  | one
  | all
deriving DecidableEq

/-- The lines of a text in lines: a line is as far in as they begin, or void. -/
def blockLines (indent : Nat) (ls : List Line) : List Line × List Line :=
  let isIn (l : Line) : Bool := indent ≤ l.indent || l.body.isEmpty
  (ls.takeWhile isIn, ls.dropWhile isIn)

/-- Lines with the line ends between them, where single ones become spaces unless one of the lines
is further in. -/
def folded : List (List Char) → List Char
  | [] => []
  | [l] => l
  | l :: rest =>
    let gap := rest.takeWhile List.isEmpty
    match rest.drop gap.length with
    | [] => l ++ List.replicate rest.length '\n'
    | n :: _ =>
      let isFar (s : List Char) : Bool := s.head?.any isSpace
      let first := if l.isEmpty || isFar l || isFar n then ['\n']
        else if gap.isEmpty then [' '] else []
      l ++ first ++ folded rest

def readBlock (isFolded : Bool) (header : List Char) (parent : Int) (ls : List Line) :
    Option (Setting × List Line) := do
  let marks := header.takeWhile fun c => c = '+' || c = '-' || c.isDigit
  if !isVoid (header.drop marks.length) then none
  let keep : Keep := if marks.contains '-' then .none else if marks.contains '+' then .all else .one
  let indent : Nat := match marks.find? Char.isDigit, ls.find? fun l => !l.body.isEmpty with
    | some d, _ => (max parent 0).toNat + digitValue d
    | none, some l => max l.indent (parent + 1).toNat
    | none, none => 0
  let (own, rest) := blockLines indent ls
  let texts := own.map fun l => l.chars.drop indent
  let kept := (texts.reverse.dropWhile List.isEmpty).reverse
  let body := if isFolded then folded kept else ['\n'].intercalate kept
  let ending := match keep with
    | .none => []
    | .one => if kept.isEmpty then [] else ['\n']
    | .all => List.replicate (texts.length - kept.length + (if kept.isEmpty then 0 else 1)) '\n'
  some (text (String.ofList (body ++ ending)), rest)

/-- A value that begins on a line, and the lines after it. What belongs to it is further in than its
parent. -/
def readInline (parent : Int) (body : List Char) (ls : List Line) : Option (Setting × List Line) :=
  match body with
  | '|' :: header => readBlock false header parent ls
  | '>' :: header => readBlock true header parent ls
  | c :: _ =>
    if c = '"' || c = '\'' || c = '[' || c = '\x7b' then do
      let s := joined body ls
      let (value, rest) ← readFlow (s.length + 1) s
      some (value, ← linesAfter rest)
    else if beginsPlain body then do
      let (part, after) := plainPart false body
      if !isVoid after then none
      let (more, rest) :=
        if after.isEmpty then plainFurther parent (ls.length + 1) ls else ([], ls)
      some (← plain (trimEnd part ++ more), rest)
    else none
  | [] => none

mutual

def readNode (parent : Int) : Nat → List Line → Option (Setting × List Line)
  | 0, _ => none
  | fuel + 1, ls =>
    match content ls with
    | [] => some (nothing, [])
    | l :: rest =>
      if (l.indent : Int) ≤ parent then some (nothing, l :: rest)
      else if (itemOf l.body).isSome then do
        let (items, rest) ← readSequence l.indent fuel (l :: rest)
        some (list items, rest)
      else if (entryOf l.body).isSome then do
        let (es, rest) ← readMapping l.indent [] fuel (l :: rest)
        some (table es, rest)
      else readInline parent l.body rest

def readSequence (indent : Nat) : Nat → List Line → Option (List Setting × List Line)
  | 0, _ => none
  | fuel + 1, ls =>
    match content ls with
    | [] => some ([], [])
    | l :: rest =>
      match if l.indent = indent then itemOf l.body else none with
      | none => if indent < l.indent then none else some ([], l :: rest)
      | some body => do
        let gap := (body.takeWhile isSpace).length
        let (item, rest) ←
          if isVoid body then readNode indent fuel rest
          else readNode indent fuel (⟨indent + 1 + gap, body.drop gap⟩ :: rest)
        let (items, rest) ← readSequence indent fuel rest
        some (item :: items, rest)

/-- The entries at a place after those before them, and the lines after them. Items that are the
value of an entry may begin at its place. -/
def readMapping (indent : Nat) (before : List (String × Setting)) :
    Nat → List Line → Option (List (String × Setting) × List Line)
  | 0, _ => none
  | fuel + 1, ls =>
    match content ls with
    | [] => some (before, [])
    | l :: rest =>
      if l.indent < indent then some (before, l :: rest)
      else do
        if indent < l.indent then none
        let (name, body) ← entryOf l.body
        let (value, rest) ←
          if !isVoid body then readInline indent body rest
          else match content rest with
            | next :: others =>
              if next.indent = indent && (itemOf next.body).isSome then do
                let (items, rest) ← readSequence indent fuel (next :: others)
                some (list items, rest)
              else readNode indent fuel (next :: others)
            | [] => some (nothing, [])
        readMapping indent (← add name value before) fuel rest

end

/-- Whether a line is a mark: three of a sign, and nothing or a blank after them. -/
def isMark (c : Char) (l : Line) : Bool :=
  l.indent = 0 && [c, c, c].isPrefixOf l.body && (l.body.drop 3).head?.all isSpace

def document (ls : List Line) : Option (List Line) :=
  let isDirective (l : Line) : Bool := l.indent = 0 && l.body.head? = some '%'
  let ls := content (ls.dropWhile fun l => isVoid l.body || isDirective l)
  let ls := match ls with
    | l :: rest =>
      if isMark '-' l then Line.mk 4 ((l.body.drop 3).dropWhile isSpace) :: rest else l :: rest
    | [] => []
  let own := ls.takeWhile fun l => !isMark '-' l && !isMark '.' l
  match content (ls.drop own.length) with
  | [] => some own
  | l :: rest => if isMark '.' l && (content rest).isEmpty then some own else none

/-- The setting that a text is. Without a document it is an empty table. -/
def read (s : String) : Option Setting := do
  let ls := (lines s.toList).map lineOf
  if (content ls).isEmpty then some (table [])
  else
    let ls ← document ls
    let (value, rest) ← readNode (-1) (2 * s.length + 2) ls
    if (content rest).isEmpty then some value else none

end TemporalDB.Setting.Yaml
