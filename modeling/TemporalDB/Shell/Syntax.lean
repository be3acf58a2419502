import TemporalDB.Text.Octet

/-!
# Shell scripts

A script is made of simple commands, joined in sequence, by success or failure, in pipelines and in
compound commands. A word is made of characters, of parameters, of commands whose output it takes
in, and of arithmetic; quotes leave marks in it. Texts of scripts are bytes as characters.
-/

namespace TemporalDB.Shell

/-- Which end of a value gives way to a pattern, and how much of it. -/
inductive Trim where
  | shortestPrefix
  | longestPrefix
  | shortestSuffix
  | longestSuffix
deriving DecidableEq

/-- What is asked of a parameter. -/
inductive Form where
  /-- Its value. -/
  | plain
  /-- The length of its value. -/
  | length
  /-- Its value or else a word. -/
  | orElse
  /-- Its value or else a word, which then is its value. -/
  | assign
  /-- Its value, or else a complaint. -/
  | complain
  /-- A word if it has a value. -/
  | instead
  /-- Its value without what matches a pattern. -/
  | trim (t : Trim)
  /-- Something that cannot be asked. -/
  | bad
deriving DecidableEq

inductive Opening where
  | read
  | create
  /-- As `create`, even if files are not to be written over. -/
  | replace
  | append
  | update
deriving DecidableEq

mutual

inductive Part where
  /-- A character. One that is quoted has no meaning but itself. -/
  | char (c : Char) (quoted : Bool)
  /-- A quotation mark. -/
  | mark
  /-- A parameter and the word that its form has. An empty value may count as none. -/
  | parameter (name : List Char) (form : Form) (emptyIsNone : Bool) (word : List Part)
  /-- What a command writes. -/
  | output (body : Command)
  /-- The value of an arithmetic expression. -/
  | arithmetic (body : List Part)

/-- A command. Some know the line on which they stand. -/
inductive Command where
  | nothing
  | simple (line : Nat) (assignments words : List (List Part)) (redirections : List Redirection)
  /-- A command that runs in a shell of its own. -/
  | subshell (line : Nat) (body : Command) (redirections : List Redirection)
  /-- A command that is not waited for. -/
  | background (line : Nat) (body : Command) (redirections : List Redirection)
  | redirected (line : Nat) (body : Command) (redirections : List Redirection)
  | pipeline (commands : List Command)
  | negation (body : Command)
  | sequence (first second : Command)
  | both (first second : Command)
  | either (first second : Command)
  | conditional (test yes no : Command)
  /-- A loop that goes on as long as its test succeeds, or as long as it fails. -/
  | loop (whileTrue : Bool) (test body : Command)
  | iteration (line : Nat) (name : List Char) (words : List (List Part)) (body : Command)
  | choice (line : Nat) (subject : List Part) (cases : List (List (List Part) × Command))
  | definition (name : List Char) (body : Command)

inductive Redirection where
  | file (stream : Nat) (opening : Opening) (word : List Part)
  /-- To the stream of another number. -/
  | same (stream other : Nat)
  | close (stream : Nat)
  /-- To the stream whose number a word gives. -/
  | sameAs (stream : Nat) (word : List Part)
  /-- From the document of a number. -/
  | document (stream number : Nat)

end

instance : Inhabited Part := ⟨.mark⟩
instance : Inhabited Command := ⟨.nothing⟩
instance : Inhabited Redirection := ⟨.close 0⟩

def beginsName (c : Char) : Bool := c.isAlpha || c = '_'

def inName (c : Char) : Bool := c.isAlphanum || c = '_'

def isName (s : List Char) : Bool :=
  match s with
  | [] => false
  | c :: _ => beginsName c && s.all inName

def isSpecialParameter (c : Char) : Bool := "@*#?-$!".toList.contains c || c.isDigit

/-- The characters of a word in which nothing is quoted or taken in. -/
def plainText (w : List Part) : Option (List Char) :=
  w.mapM fun
    | .char c false => some c
    | _ => none

def letters (w : List Part) : List Char :=
  w.filterMap fun
    | .char c _ => some c
    | _ => none

def isQuoted (w : List Part) : Bool :=
  w.any fun
    | .mark | .char _ true => true
    | _ => false

def assignment? (w : List Part) : Option (List Char × List Part) :=
  let name := (w.takeWhile fun
    | .char c false => inName c
    | _ => false)
  match w.drop name.length with
  | .char '=' false :: value =>
    let name := letters name
    if isName name then some (name, value) else none
  | _ => none

end TemporalDB.Shell
