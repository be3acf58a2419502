import TemporalDB.Query
import TemporalDB.ScalarType
import TemporalDB.Text.Letter

/-!
# Tokens of SQL text

SQL text is a row of words, numerals, strings and signs. Blanks and comments, which run from two
hyphens to the end of the line, stand between them and mean nothing. Every token knows the line on
which it begins; lines are counted from one.
-/

namespace TemporalDB.Sql

open Text

inductive Token where
  /-- A name or a keyword, as written. -/
  | word (text : String)
  /-- A numeral, with a hyphen in front if it has one. -/
  | number (text : String)
  /-- A string: what stands between the quotes, each doubled quote once. -/
  | string (text : String)
  | param
  | comma
  | leftParen
  | rightParen
  | semicolon
  | star
  | comparator (op : Comparator)
deriving DecidableEq

def Token.display : Token → String
  | word w => quoted w
  | number n => "number " ++ n
  | string s => "string '" ++ s ++ "'"
  | param => "'?'"
  | comma => "','"
  | leftParen => "'('"
  | rightParen => "')'"
  | semicolon => "';'"
  | star => "'*'"
  | comparator op => "'" ++ op.symbol ++ "'"

/-- A token and the line on which it begins. -/
structure Located where
  token : Token
  line : Nat
deriving DecidableEq

/-- What is wrong with a text that is not SQL, or with a definition that contradicts itself. -/
inductive Fault where
  /-- No token begins with the character, or none goes on with it. -/
  | unexpectedChar (c : Char)
  | unterminatedString
  /-- Something else was expected than the token that is there, or than the end. -/
  | unexpected (expected : String) (found : Option Token)
  | insertCount (names values : Nat)
  | duplicateRelation (name : String)
  | duplicateColumn (column relation : String)
  | secondKey (relation : String)
  | noKey (relation : String)
  | keyNotColumn (column relation : String)
  | keyTwice (column : String)
  | type (e : ScalarError)
deriving DecidableEq

def Fault.message : Fault → String
  | unexpectedChar c => "unexpected character " ++ quotedChar c
  | unterminatedString => "unterminated string literal"
  | unexpected expected found =>
    "expected " ++ expected ++ ", found " ++ found.elim "end of input" Token.display
  | insertCount names values =>
    "INSERT names " ++ showNat names ++ " columns but supplies " ++ showNat values ++ " values"
  | duplicateRelation name => "duplicate relation " ++ quoted name
  | duplicateColumn column relation =>
    "duplicate column " ++ quoted column ++ " in " ++ quoted relation
  | secondKey relation => "relation " ++ quoted relation ++ " has more than one primary key"
  | noKey relation => "relation " ++ quoted relation ++ " has no primary key"
  | keyNotColumn column relation =>
    "primary key column " ++ quoted column ++ " is not a column of " ++ quoted relation
  | keyTwice column => "primary key column " ++ quoted column ++ " listed twice"
  | type e => e.message

structure SyntaxError where
  line : Nat
  fault : Fault
deriving DecidableEq

def SyntaxError.message (e : SyntaxError) : String :=
  "line " ++ showNat e.line ++ ": " ++ e.fault.message

/-- What stands at the beginning of a text: a token, or something between tokens; how many lines
end inside it; and the text after it. -/
structure Lexeme where
  token : Option Token
  breaks : Nat
  rest : List Char

def continuesNumber (c : Char) : Bool := c.isDigit || c = '.'

/-- The content of a string whose opening quote was read, and the text after its closing quote. -/
def scanString : List Char → Option (List Char × List Char)
  | [] => none
  | '\'' :: '\'' :: rest => (scanString rest).map fun (s, rest) => ('\'' :: s, rest)
  | '\'' :: rest => some ([], rest)
  | c :: rest => (scanString rest).map fun (s, rest) => (c :: s, rest)

def scanSign : Char → List Char → Option (Token × List Char)
  | '<', '=' :: rest => some (.comparator .ltEq, rest)
  | '<', '>' :: rest => some (.comparator .notEq, rest)
  | '<', rest => some (.comparator .lt, rest)
  | '>', '=' :: rest => some (.comparator .gtEq, rest)
  | '>', rest => some (.comparator .gt, rest)
  | '!', '=' :: rest => some (.comparator .notEq, rest)
  | '=', rest => some (.comparator .eq, rest)
  | '?', rest => some (.param, rest)
  | ',', rest => some (.comma, rest)
  | '(', rest => some (.leftParen, rest)
  | ')', rest => some (.rightParen, rest)
  | ';', rest => some (.semicolon, rest)
  | '*', rest => some (.star, rest)
  | _, _ => none

/-- The lexeme that begins with `c` and goes on in `rest`. A hyphen begins a comment before
another hyphen and a numeral before a digit or a point, and nothing else. -/
def scan (c : Char) (rest : List Char) : Except Fault Lexeme :=
  if c = '\n' then .ok ⟨none, 1, rest⟩
  else if isBlank c then .ok ⟨none, 0, rest⟩
  else if c = '-' then
    match rest with
    | [] => .error (.unexpectedChar c)
    | d :: _ =>
      if d = '-' then .ok ⟨none, 0, rest.dropWhile (· ≠ '\n')⟩
      else if continuesNumber d then
        .ok ⟨some (.number (String.ofList (c :: rest.takeWhile continuesNumber))), 0,
          rest.dropWhile continuesNumber⟩
      else .error (.unexpectedChar c)
  else if c.isDigit then
    .ok ⟨some (.number (String.ofList (c :: rest.takeWhile continuesNumber))), 0,
      rest.dropWhile continuesNumber⟩
  else if beginsName c then
    .ok ⟨some (.word (String.ofList (c :: rest.takeWhile continuesName))), 0,
      rest.dropWhile continuesName⟩
  else if c = '\'' then
    match scanString rest with
    | some (s, after) => .ok ⟨some (.string (String.ofList s)), s.count '\n', after⟩
    | none => .error .unterminatedString
  else
    match scanSign c rest with
    | some (token, after) => .ok ⟨some token, 0, after⟩
    | none => .error (.unexpectedChar c)

theorem length_dropWhile_le (p : Char → Bool) (s : List Char) :
    (s.dropWhile p).length ≤ s.length :=
  (List.dropWhile_suffix p).length_le

theorem length_le_of_scanString {s content after : List Char}
    (h : scanString s = some (content, after)) : after.length ≤ s.length := by
  fun_induction scanString s generalizing content after with
  | case1 => simp at h
  | case2 rest ih =>
    obtain ⟨⟨t, u⟩, ht, he⟩ := Option.map_eq_some_iff.1 h
    cases he
    exact Nat.le_trans (ih ht) (by simp only [List.length_cons]; omega)
  | case3 rest _ =>
    cases h
    simp
  | case4 c rest _ _ ih =>
    obtain ⟨⟨t, u⟩, ht, he⟩ := Option.map_eq_some_iff.1 h
    cases he
    exact Nat.le_trans (ih ht) (by simp)

theorem length_le_of_scanSign {c : Char} {s after : List Char} {token : Token}
    (h : scanSign c s = some (token, after)) : after.length ≤ s.length := by
  unfold scanSign at h
  split at h <;> cases h <;> simp

/-- A lexeme takes at least the character with which it begins. -/
theorem length_le_of_scan {c : Char} {s : List Char} {l : Lexeme} (h : scan c s = .ok l) :
    l.rest.length ≤ s.length := by
  unfold scan at h
  repeat' split at h
  all_goals first
    | (cases h; done)
    | (cases h; exact Nat.le_refl _)
    | (cases h; exact length_dropWhile_le _ _)
    | (cases h; exact length_le_of_scanString ‹_›)
    | (cases h; exact length_le_of_scanSign ‹_›)

def tokensFrom (line : Nat) (s : List Char) : Except SyntaxError (List Located) :=
  match s with
  | [] => .ok []
  | c :: rest =>
    match _h : scan c rest with
    | .error fault => .error ⟨line, fault⟩
    | .ok l => do
      let tokens ← tokensFrom (line + l.breaks) l.rest
      match l.token with
      | some token => .ok (⟨token, line⟩ :: tokens)
      | none => .ok tokens
termination_by s.length
decreasing_by exact Nat.lt_succ_of_le (length_le_of_scan _h)

def tokens (s : String) : Except SyntaxError (List Located) := tokensFrom 1 s.toList

end TemporalDB.Sql
