import TemporalDB.Sql.Token

/-!
# Reading tokens

A parser takes tokens from the front of those that are left. A fault is reported on the line of the
next token, or of the last one when none is left. Parameters are numbered in the order in which
they are read.
-/

namespace TemporalDB.Sql

open Text

/-- The tokens that are left, and how many parameters were read. -/
structure Cursor where
  rest : List Located
  /-- The line of the last token of the text, and 1 for a text without tokens. -/
  lastLine : Nat
  params : Nat

namespace Cursor

def start (tokens : List Located) : Cursor :=
  ⟨tokens, (tokens.getLast?.map (·.line)).getD 1, 0⟩

def line (c : Cursor) : Nat := (c.rest.head?.map (·.line)).getD c.lastLine

def next (c : Cursor) : Option Token := c.rest.head?.map (·.token)

end Cursor

/-- Takes tokens from the front, or stops at a fault. -/
abbrev Parser := StateT Cursor (Except SyntaxError)

namespace Parser

def fail {α : Type} (fault : Fault) : Parser α := fun c => .error ⟨c.line, fault⟩

def unexpected {α : Type} (expected : String) : Parser α :=
  fun c => .error ⟨c.line, .unexpected expected c.next⟩

def ofExcept {α : Type} : Except Fault α → Parser α
  | .ok a => pure a
  | .error fault => fail fault

def atEnd : Parser Bool := fun c => .ok (c.rest.isEmpty, c)

/-- Takes the next token if it is the given one. -/
def sign? (t : Token) : Parser Bool := fun c =>
  match c.rest with
  | ⟨u, _⟩ :: rest => if u = t then .ok (true, { c with rest }) else .ok (false, c)
  | [] => .ok (false, c)

def sign (t : Token) : Parser Unit := do
  if ← sign? t then pure () else unexpected t.display

/-- What follows keywords, if the tokens begin with them. -/
def afterKeywords : List String → List Located → Option (List Located)
  | [], rest => some rest
  | keyword :: keywords, ⟨.word w, _⟩ :: rest =>
    if sameName w keyword then afterKeywords keywords rest else none
  | _, _ => none

/-- Takes keywords if all of them come next, and else nothing. -/
def keywords? (keywords : List String) : Parser Bool := fun c =>
  match afterKeywords keywords c.rest with
  | some rest => .ok (true, { c with rest })
  | none => .ok (false, c)

def keyword? (keyword : String) : Parser Bool := keywords? [keyword]

def keyword (keyword : String) : Parser Unit := do
  if ← keyword? keyword then pure () else unexpected keyword

/-- A name: any word, also one that is a keyword elsewhere. -/
def identifier : Parser String := fun c =>
  match c.rest with
  | ⟨.word w, _⟩ :: rest => .ok (w, { c with rest })
  | _ => unexpected "identifier" c

def count : Parser Nat := fun c =>
  match c.rest with
  | ⟨.number n, _⟩ :: rest =>
    match readCount bound32 n.toList with
    | some k => .ok (k, { c with rest })
    | none => unexpected "unsigned integer" c
  | _ => unexpected "unsigned integer" c

def expr : Parser Expr := fun c =>
  match c.rest with
  | ⟨.param, _⟩ :: rest => .ok (.param c.params, { c with rest, params := c.params + 1 })
  | ⟨.number n, _⟩ :: rest => .ok (.literal (.number n), { c with rest })
  | ⟨.string s, _⟩ :: rest => .ok (.literal (.string s), { c with rest })
  | _ => unexpected "'?' or a literal" c

def comparator : Parser Comparator := fun c =>
  match c.rest with
  | ⟨.comparator op, _⟩ :: rest => .ok (op, { c with rest })
  | _ => unexpected "comparison operator" c

/-- At most `bound` items after a first one, as long as a separator comes after each. -/
def separatedUpTo {α : Type} (separator : Parser Bool) (item : Parser α) :
    Nat → Parser (List α)
  | 0 => do
    let first ← item
    pure [first]
  | bound + 1 => do
    let first ← item
    if ← separator then
      let others ← separatedUpTo separator item bound
      pure (first :: others)
    else pure [first]

/-- One or more items with separators between them. Every item takes a token, so there are no more
items than tokens. -/
def separated {α : Type} (separator : Parser Bool) (item : Parser α) : Parser (List α) :=
  fun c => separatedUpTo separator item c.rest.length c

def commaSeparated {α : Type} (item : Parser α) : Parser (List α) := separated (sign? .comma) item

def parenthesized {α : Type} (item : Parser α) : Parser (List α) := do
  sign .leftParen
  let items ← commaSeparated item
  sign .rightParen
  pure items

def opens : Parser Bool := fun c => .ok (c.next = some .leftParen, c)

/-- Repeats a step until it declines, at most `bound` times. -/
def repeatUpTo {α : Type} (step : α → Parser (Option α)) : Nat → α → Parser α
  | 0, a => pure a
  | bound + 1, a => do
    match ← step a with
    | some b => repeatUpTo step bound b
    | none => pure a

/-- Repeats a step until it declines. Every step but the last takes a token. -/
def repeated {α : Type} (step : α → Parser (Option α)) (a : α) : Parser α :=
  fun c => repeatUpTo step c.rest.length a c

def run {α : Type} (p : Parser α) (tokens : List Located) : Except SyntaxError α :=
  (p (Cursor.start tokens)).map (·.1)

end Parser

end TemporalDB.Sql
