import TemporalDB.Shell.Syntax

/-!
# Tokens of scripts

A script is read as tokens: ends of lines and of the script, operators, redirections, words, and
reserved words where these have a meaning. Complaints about a script name the token at which it
went wrong.
-/

namespace TemporalDB.Shell

inductive Token where
  | endOfFile
  | newline
  | semicolon
  | ampersand
  | andIf
  | orIf
  | pipe
  | open
  | close
  | endCase
  | redirection
  | word
  /-- A reserved word. -/
  | reserved (word : String)
deriving DecidableEq

namespace Token

def reservedWords : List String :=
  ["!", "case", "do", "done", "elif", "else", "esac", "fi", "for", "if", "in", "then", "until",
    "while", "\x7b", "\x7d"]

def name : Token → String
  | endOfFile => "end of file"
  | newline => "newline"
  | semicolon => "\";\""
  | ampersand => "\"&\""
  | andIf => "\"&&\""
  | orIf => "\"||\""
  | pipe => "\"|\""
  | .open => "\"(\""
  | close => "\")\""
  | endCase => "\";;\""
  | redirection => "redirection"
  | word => "word"
  | reserved w => "\"" ++ w ++ "\""

def endsList : Token → Bool
  | endOfFile | close | endCase => true
  | reserved w => ["do", "done", "elif", "else", "esac", "fi", "then", "\x7d"].contains w
  | _ => false

def complaint (found : Token) (expected : Option Token) : String :=
  match expected with
  | none => found.name ++ " unexpected"
  | some e => found.name ++ " unexpected (expecting " ++ e.name ++ ")"

end Token

/-! ## Pieces of words -/

/-- A piece of a word as it is read: words within the word stand between an opening and a closing
piece. -/
inductive Piece where
  | char (c : Char) (quoted : Bool)
  | mark
  | parameter (name : List Char)
  | opening (name : List Char) (form : Form) (emptyIsNone : Bool)
  | closing
  | output (body : Command)
  | openingArithmetic
  | closingArithmetic

def partsOf : Nat → List Piece → List Part × List Piece
  | 0, rest => ([], rest)
  | _, [] => ([], [])
  | fuel + 1, piece :: rest =>
    let followedBy (part : Part) (rest : List Piece) : List Part × List Piece :=
      let (parts, rest) := partsOf fuel rest
      (part :: parts, rest)
    match piece with
    | .char c quoted => followedBy (.char c quoted) rest
    | .mark => followedBy .mark rest
    | .parameter name => followedBy (.parameter name .plain false []) rest
    | .output body => followedBy (.output body) rest
    | .opening name form emptyIsNone =>
      let (word, rest) := partsOf fuel rest
      followedBy (.parameter name form emptyIsNone word) rest
    | .openingArithmetic =>
      let (body, rest) := partsOf fuel rest
      followedBy (.arithmetic body) rest
    | .closing | .closingArithmetic => ([], rest)

def wordOf (pieces : List Piece) : List Part := (partsOf (2 * pieces.length + 1) pieces).1

end TemporalDB.Shell
