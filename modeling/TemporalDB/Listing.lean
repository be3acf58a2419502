import TemporalDB.Text.Blank
import TemporalDB.Text.Number
import TemporalDB.Text.Quoted

/-!
# Listings

A listing is a text of lines, each a row of words and quoted strings. Blank lines and lines that
begin with a semicolon do not count. `Directive.text` writes a line, `splitLine` takes one apart,
and `readLines` gives the lines of a listing with their numbers.
-/

namespace TemporalDB.Listing

open Text

inductive Token where
  | word (text : String)
  | quoted (text : String)
deriving DecidableEq

def Token.display : Token → String
  | word w => "Word(" ++ Text.quoted w ++ ")"
  | quoted s => "Quoted(" ++ Text.quoted s ++ ")"

/-- One line of a listing: a keyword, and what stands after it if the keyword takes anything. -/
structure Directive where
  keyword : String
  arguments : Option (List Token)

def escape (c : Char) : List Char :=
  if c = '\\' || c = '"' then ['\\', c] else if c = '\n' then ['\\', 'n'] else [c]

/-- A text in quotes, in which quotes, backslashes and line feeds are escaped. -/
def quote (s : String) : String :=
  String.ofList (['"'] ++ s.toList.flatMap escape ++ ['"'])

def Token.text : Token → String
  | word w => w
  | quoted s => quote s

/-- A line without its ending: the keyword, and its arguments after a blank each. -/
def Directive.text (d : Directive) : String :=
  match d.arguments with
  | none => d.keyword
  | some args => d.keyword ++ " " ++ String.intercalate " " (args.map Token.text)

/-- Lines as a text, each ended by a line feed. -/
def textOf (ds : List Directive) : String := String.join (ds.map fun d => d.text ++ "\n")

/-- A comment of one line: line ends in it become blanks. -/
def comment (s : String) : String :=
  "; " ++ String.ofList (s.toList.map fun c => if c = '\n' || c = '\r' then ' ' else c) ++ "\n"

/-- Why a line cannot be taken apart. -/
inductive TokenFault where
  /-- A backslash that nothing or something other than `n`, a backslash or a quote follows. -/
  | invalidEscape (c : Option Char)
  | unterminatedString
deriving DecidableEq

def TokenFault.message : TokenFault → String
  | invalidEscape (some c) => "invalid escape Some(" ++ quotedChar c ++ ")"
  | invalidEscape none => "invalid escape None"
  | unterminatedString => "unterminated string"

/-- The content of a string whose opening quote was read, and the text after its closing quote. -/
def scanQuoted : List Char → Except TokenFault (List Char × List Char)
  | [] => .error .unterminatedString
  | '"' :: rest => .ok ([], rest)
  | '\\' :: rest =>
    match rest with
    | [] => .error (.invalidEscape none)
    | e :: rest =>
      if e = 'n' then do
        let (s, rest) ← scanQuoted rest
        .ok ('\n' :: s, rest)
      else if e = '\\' || e = '"' then do
        let (s, rest) ← scanQuoted rest
        .ok (e :: s, rest)
      else .error (.invalidEscape (some e))
  | c :: rest => do
    let (s, rest) ← scanQuoted rest
    .ok (c :: s, rest)

def continuesWord (c : Char) : Bool := !isBlank c && c ≠ '"'

theorem length_le_of_scanQuoted {s content after : List Char}
    (h : scanQuoted s = .ok (content, after)) : after.length ≤ s.length := by
  fun_induction scanQuoted s generalizing content after with
  | case1 => cases h
  | case2 rest =>
    cases h
    simp
  | case3 => cases h
  | case4 rest ih =>
    cases hs : scanQuoted rest with
    | error e => simp [hs, bind, Except.bind] at h
    | ok r =>
      simp only [hs, bind, Except.bind, Except.ok.injEq, Prod.mk.injEq] at h
      obtain ⟨-, rfl⟩ := h
      exact Nat.le_trans (ih hs) (by simp only [List.length_cons]; omega)
  | case5 e rest _ _ ih =>
    cases hs : scanQuoted rest with
    | error e => simp [hs, bind, Except.bind] at h
    | ok r =>
      simp only [hs, bind, Except.bind, Except.ok.injEq, Prod.mk.injEq] at h
      obtain ⟨-, rfl⟩ := h
      exact Nat.le_trans (ih hs) (by simp only [List.length_cons]; omega)
  | case6 => cases h
  | case7 c rest _ _ ih =>
    cases hs : scanQuoted rest with
    | error e => simp [hs, bind, Except.bind] at h
    | ok r =>
      simp only [hs, bind, Except.bind, Except.ok.injEq, Prod.mk.injEq] at h
      obtain ⟨-, rfl⟩ := h
      exact Nat.le_trans (ih hs) (by simp)

/-- The words and strings of a line. A quote ends a word. -/
def splitLine (s : List Char) : Except TokenFault (List Token) :=
  match s with
  | [] => .ok []
  | c :: rest =>
    if isBlank c then splitLine rest
    else if c = '"' then
      match _h : scanQuoted rest with
      | .error fault => .error fault
      | .ok (content, after) => do
        let tokens ← splitLine after
        .ok (.quoted (String.ofList content) :: tokens)
    else do
      let tokens ← splitLine (rest.dropWhile continuesWord)
      .ok (.word (String.ofList (c :: rest.takeWhile continuesWord)) :: tokens)
termination_by s.length
decreasing_by
  · simp
  · exact Nat.lt_succ_of_le (length_le_of_scanQuoted _h)
  · exact Nat.lt_succ_of_le (List.dropWhile_suffix _).length_le

/-- The tokens of one line and the line's number, counted from one. -/
structure Line where
  number : Nat
  tokens : List Token
deriving DecidableEq

/-- Whether a line without the blanks around it counts. -/
def counts : List Char → Bool
  | [] => false
  | c :: _ => c ≠ ';'

/-- The lines that count among those of a text, numbered from `number` on. A fault comes with the
number of its line. -/
def readLinesFrom (number : Nat) : List (List Char) → Except (Nat × TokenFault) (List Line)
  | [] => .ok []
  | raw :: rest => do
    if counts (trim raw) then
      match splitLine (trim raw) with
      | .error fault => .error (number, fault)
      | .ok tokens => do
        let lines ← readLinesFrom (number + 1) rest
        .ok (⟨number, tokens⟩ :: lines)
    else readLinesFrom (number + 1) rest

def readLines (listing : String) : Except (Nat × TokenFault) (List Line) :=
  readLinesFrom 1 (lines listing.toList)

end TemporalDB.Listing
