import TemporalDB.Shell.Token

/-!
# Reading scripts

A script is read one command line at a time, so that a complaint about a line comes only after the
lines before it have run. `Reader.next` reads one. The documents that follow a line are numbered,
and redirections refer to them by their number.
-/

namespace TemporalDB.Shell

/-- A document that is to follow the line. -/
structure Announced where
  number : Nat
  /-- The line that ends it. -/
  ending : List Char
  /-- Whether it is taken as it stands. -/
  literal : Bool
  /-- Whether tabs at the beginning of its lines do not count. -/
  unindented : Bool

inductive Redirecting where
  | file (opening : Opening)
  | same
  | document (unindented : Bool)

/-- The state of reading a script. -/
structure Reader where
  rest : List Char
  /-- The number of the line. -/
  line : Nat
  /-- The token that was read last. -/
  token : Token
  /-- Whether that token is to be read again. -/
  again : Bool
  /-- The word of the token, if it is one. -/
  word : List Part
  /-- What kind of redirection the token is, if it is one, and of which stream. -/
  redirecting : Redirecting × Nat
  /-- Whether ends of lines do not count before the next token. -/
  skipsLines : Bool
  /-- Whether the next token may be a reserved word. -/
  reserves : Bool
  /-- Whether the next word ends a document. -/
  marksEnd : Bool
  announced : List Announced
  /-- The documents so far. -/
  documents : Array (List Part)

/-- A complaint about a script and the line to which it refers. -/
structure Complaint where
  line : Nat
  text : String

abbrev Reading := StateT Reader (Except Complaint)

namespace Reader

def ofText (text : List Char) (line : Nat) (documents : Array (List Part)) : Reader :=
  ⟨text, line, .newline, false, [], (.same, 0), false, false, false, [], documents⟩

def complain {α : Type} (text : String) : Reading α := do
  throw ⟨(← get).line, "Syntax error: " ++ text⟩

def unexpected {α : Type} (expected : Option Token) : Reading α := do
  complain ((← get).token.complaint expected)

/-- A text without the ends of lines at its front that a backslash takes away, and their number. -/
def joinLines : List Char → Nat × List Char
  | '\\' :: '\n' :: rest =>
    let (n, rest) := joinLines rest
    (n + 1, rest)
  | rest => (0, rest)

/-- The next character. It stays. -/
def peek : Reading (Option Char) := do
  let r ← get
  let (n, rest) := joinLines r.rest
  set { r with rest, line := r.line + n }
  return rest.head?

/-- The next character, even if a backslash takes it away. It stays. -/
def peekRaw : Reading (Option Char) := return (← get).rest.head?

def skip : Reading Unit := modify fun r =>
  { r with rest := r.rest.drop 1, line := if r.rest.head? = some '\n' then r.line + 1 else r.line }

/-- Goes on behind the next character, which does not begin a line even if it ends one. -/
def skipUncounted : Reading Unit := modify fun r => { r with rest := r.rest.drop 1 }

def skipIf (c : Char) : Reading Bool := do
  if (← peek) = some c then
    skip
    return true
  else return false

def many (p : Char → Bool) : Nat → Reading (List Char)
  | 0 => return []
  | fuel + 1 => do
    match ← peek with
    | some c => if p c then do skip; return c :: (← many p fuel) else return []
    | none => return []

def behindEnding (a : Announced) (text : List Char) : Option (List Char) :=
  let text := if a.unindented then text.dropWhile (· = '\t') else text
  if a.ending.isPrefixOf text then
    match text.drop a.ending.length with
    | [] => some []
    | '\n' :: rest => some rest
    | _ => none
  else none

/-- Goes on behind the ends of lines that a backslash takes away. -/
def passJoins : Reading Unit := do
  let _ ← peek

/-! ## Parameters -/

/-- The form that stands behind the name of a parameter, and whether an empty value counts as
none. -/
def readForm : Reading (Form × Bool) := do
  let emptyIsNone ← skipIf ':'
  let after (c : Char) (one two : Trim) : Reading Form := do
    return .trim (if ← skipIf c then two else one)
  match ← peek with
  | none => return (.bad, emptyIsNone)
  | some c =>
    skipUncounted
    let form ← match c with
      | '\x7d' => pure .plain
      | '-' => pure .orElse
      | '+' => pure .instead
      | '?' => pure .complain
      | '=' => pure .assign
      | '#' => if emptyIsNone then pure .bad else after '#' .shortestPrefix .longestPrefix
      | '%' => if emptyIsNone then pure .bad else after '%' .shortestSuffix .longestSuffix
      | _ => pure .bad
    return (form, emptyIsNone)

/-- A parameter in braces: its name, its form and whether an empty value counts as none. The brace
that closes it is left unless nothing stands between. -/
def readBraced (fuel : Nat) : Reading (List Char × Form × Bool) := do
  let withForm (name : List Char) : Reading (List Char × Form × Bool) := do
    let (form, emptyIsNone) ← readForm
    return (name, form, emptyIsNone)
  match ← peek with
  | none => return ([], .bad, false)
  | some c =>
    if beginsName c || c.isDigit then
      withForm (← many (if c.isDigit then Char.isDigit else inName) fuel)
    else if c = '\x7d' then return ([], .bad, false)
    else
      skip
      if c = '#' then
        match ← peek with
        | none => withForm ['#']
        | some d =>
          if d = '_' || d.isAlphanum then
            let name ← many (if d.isDigit then Char.isDigit else inName) fuel
            if (← peek) = some '\x7d' then return (name, .length, false)
            else return (name, .bad, false)
          else if d = '\x7d' then withForm ['#']
          else
            let r ← get
            skip
            if (← peek) ≠ some '\x7d' then
              set r
              withForm ['#']
            else if isSpecialParameter d then return ([d], .length, false)
            else return ([], .bad, false)
      else if isSpecialParameter c then withForm [c]
      else return ([], .bad, false)

end Reader

end TemporalDB.Shell
