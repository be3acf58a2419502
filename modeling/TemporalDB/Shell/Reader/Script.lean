import TemporalDB.Shell.Reader.Word

/-!
# Reading commands

Commands are read from tokens. Which words are reserved and where ends of lines count depends on
what has been read before.
-/

namespace TemporalDB.Shell.Reader

/-! ## Tokens -/

def readWord (g : Grammar) : Reading Token := do
  let d ← readPieces g none (← steps) [.ofManner .plain] ⟨[], false⟩
  let c ← peek
  match if c = some '<' || c = some '>' then d.stream? else none with
  | some stream =>
    let (redirecting, usual) ← readRedirecting
    modify fun r => { r with redirecting := (redirecting, stream.getD usual) }
    return .redirection
  | none =>
    modify fun r => { r with word := wordOf d.pieces.reverse }
    return .word

def readRaw (g : Grammar) : Nat → Reading Token
  | 0 => return .endOfFile
  | fuel + 1 => do
    let twice (c : Char) (one two : Token) : Reading Token := do
      skip
      return if ← skipIf c then two else one
    match ← peek with
    | none => return .endOfFile
    | some c =>
      match c with
      | ' ' | '\t' => do skip; readRaw g fuel
      | '#' =>
        modify fun r => { r with rest := r.rest.dropWhile (· ≠ '\n') }
        readRaw g fuel
      | '\n' => do skip; return .newline
      | '&' => twice '&' .ampersand .andIf
      | '|' => twice '|' .pipe .orIf
      | ';' => twice ';' .semicolon .endCase
      | '(' => do skip; return .open
      | ')' => do skip; return .close
      | _ => readWord g

def readAny (g : Grammar) : Reading Token := do
  let r ← get
  if r.again then
    set { r with again := false }
    return r.token
  else
    let token ← readRaw g (← steps)
    modify fun r => { r with token }
    return token

def readBeyondLines (g : Grammar) : Nat → Token → Reading Token
  | 0, token => return token
  | fuel + 1, token =>
    if token = .newline then do
      readDocuments g
      modify fun r => { r with skipsLines := false, reserves := false, marksEnd := false }
      let token ← readAny g
      readBeyondLines g fuel token
    else return token

def readToken (g : Grammar) : Reading Token := do
  let before ← get
  let token ← readAny g
  let token ← if before.skipsLines then do readBeyondLines g (← steps) token else pure token
  modify fun r => { r with skipsLines := false, reserves := false, marksEnd := false }
  let r ← get
  let token := if token = .word && before.reserves then
      match plainText r.word with
      | some w =>
        if Token.reservedWords.contains (String.ofList w) then .reserved (String.ofList w)
        else token
      | none => token
    else token
  set { r with token }
  return token

def putBack : Reading Unit := modify fun r => { r with again := true }

def expecting (skipsLines reserves : Bool) : Reading Unit :=
  modify fun r => { r with skipsLines, reserves }

def require (g : Grammar) (token : Token) : Reading Unit := do
  if (← readToken g) ≠ token then unexpected (some token)

/-! ## Redirections -/

def sameStream (stream : Nat) (w : List Part) : Redirection :=
  match plainText w with
  | some ['-'] => .close stream
  | some [c] => if c.isDigit then .same stream (c.toNat - '0'.toNat) else .sameAs stream w
  | _ => .sameAs stream w

def readRedirection (g : Grammar) : Reading Redirection := do
  let (redirecting, stream) := (← get).redirecting
  let marksEnd := redirecting matches .document _
  modify fun r => { r with marksEnd }
  if (← readToken g) ≠ .word then unexpected none
  let r ← get
  let w := r.word
  match redirecting with
  | .file opening => return .file stream opening w
  | .same => return sameStream stream w
  | .document unindented =>
    let number := r.documents.size
    let announced : Announced := ⟨number, letters w, isQuoted w, unindented⟩
    set { r with documents := r.documents.push [], announced := r.announced ++ [announced] }
    return .document stream number

def readRedirections (g : Grammar) : Nat → Reading (List Redirection)
  | 0 => return []
  | fuel + 1 => do
    if (← readToken g) = .redirection then
      let redirection ← readRedirection g
      return redirection :: (← readRedirections g fuel)
    else
      putBack
      return []

/-! ## Commands -/

/-- The commands that belong to the language; no function has their name. -/
def specialBuiltins : List String :=
  [".", ":", "break", "continue", "eval", "exec", "exit", "export", "local", "readonly", "return",
    "set", "shift", "times", "trap", "unset"]

/-- A simple command as far as it has been read; what was read last comes first. -/
structure Simple where
  line : Nat
  assignments : List (List Part)
  words : List (List Part)
  redirections : List Redirection

def Simple.command (s : Simple) : Command :=
  .simple s.line s.assignments.reverse s.words.reverse s.redirections.reverse

def readDefinition (g : Grammar) (name : List Part) : Reading Command := do
  require g .close
  let name := (plainText name).getD []
  if !isName name || specialBuiltins.contains (String.ofList name) then
    complain "Bad function name"
  expecting true true
  return .definition name (← g.command)

def readSimple (g : Grammar) : Nat → Simple → Reading Command
  | 0, s => return s.command
  | fuel + 1, s => do
    match ← readToken g with
    | .word =>
      let w := (← get).word
      if s.words.isEmpty && (assignment? w).isSome then
        readSimple g fuel { s with assignments := w :: s.assignments }
      else readSimple g fuel { s with words := w :: s.words }
    | .redirection =>
      let redirection ← readRedirection g
      readSimple g fuel { s with redirections := redirection :: s.redirections }
    | token =>
      match token, s with
      | .open, ⟨_, [], [name], []⟩ => readDefinition g name
      | _, _ =>
        putBack
        return s.command

/-- Reads what stands between `if` or `elif` and `fi`. -/
def readBranches (g : Grammar) : Nat → Reading Command
  | 0 => return .nothing
  | fuel + 1 => do
    let test ← g.list .body
    require g (.reserved "then")
    let yes ← g.list .body
    match ← readToken g with
    | .reserved "elif" => return .conditional test yes (← readBranches g fuel)
    | .reserved "else" => return .conditional test yes (← g.list .body)
    | _ =>
      putBack
      return .conditional test yes .nothing

def readWords (g : Grammar) : Nat → Reading (List (List Part))
  | 0 => return []
  | fuel + 1 => do
    if (← readToken g) = .word then
      let w := (← get).word
      return w :: (← readWords g fuel)
    else return []

def readIteration (g : Grammar) (line : Nat) : Reading Command := do
  let token ← readToken g
  let name := (plainText (← get).word).getD []
  if token ≠ .word || !isName name then complain "Bad for loop variable"
  expecting true true
  let words ←
    if (← readToken g) = .reserved "in" then
      let words ← readWords g (← steps)
      let token := (← get).token
      if token ≠ .newline && token ≠ .semicolon then unexpected none
      pure words
    else
      if (← get).token ≠ .semicolon then putBack
      pure [[.mark, .parameter ['@'] .plain false [], .mark]]
  expecting true true
  require g (.reserved "do")
  return .iteration line name words (← g.list .body)

def readPatterns (g : Grammar) : Nat → Reading (List (List Part))
  | 0 => return []
  | fuel + 1 => do
    let pattern := (← get).word
    if (← readToken g) = .pipe then
      let _ ← readToken g
      return pattern :: (← readPatterns g fuel)
    else return [pattern]

def readCases (g : Grammar) : Nat → Reading (List (List (List Part) × Command))
  | 0 => return []
  | fuel + 1 => do
    expecting true true
    let token ← readToken g
    if token = .reserved "esac" then return []
    else
      if token = .open then let _ ← readToken g
      let patterns ← readPatterns g (← steps)
      if (← get).token ≠ .close then unexpected (some .close)
      let body ← g.list .optional
      expecting true true
      match ← readToken g with
      | .reserved "esac" => return [(patterns, body)]
      | .endCase => return (patterns, body) :: (← readCases g fuel)
      | _ => unexpected (some .endCase)

def readChoice (g : Grammar) (line : Nat) : Reading Command := do
  require g .word
  let subject := (← get).word
  expecting true true
  require g (.reserved "in")
  return .choice line subject (← readCases g (← steps))

def withRedirections (line : Nat) (body : Command) (redirections : List Redirection) : Command :=
  match redirections, body with
  | [], _ => body
  | _, .subshell line body _ => .subshell line body redirections
  | _, _ => .redirected line body redirections

def readCommand (g : Grammar) : Reading Command := do
  let line := (← get).line
  let closed (body : Command) (ending : Token) : Reading Command := do
    require g ending
    return body
  let compound : Option (Reading Command) := match ← readToken g with
    | .reserved "if" => some do closed (← readBranches g (← steps)) (.reserved "fi")
    | .reserved "while" | .reserved "until" => some do
      let whileTrue := (← get).token = .reserved "while"
      let test ← g.list .body
      require g (.reserved "do")
      closed (.loop whileTrue test (← g.list .body)) (.reserved "done")
    | .reserved "for" => some do closed (← readIteration g line) (.reserved "done")
    | .reserved "case" => some (readChoice g line)
    | .open => some do closed (.subshell line (← g.list .body) []) .close
    | .reserved "\x7b" => some do closed (← g.list .body) (.reserved "\x7d")
    | _ => none
  match compound with
  | some read =>
    let body ← read
    expecting false true
    return withRedirections line body (← readRedirections g (← steps))
  | none =>
    let r ← get
    if r.token = .word || r.token = .redirection then
      putBack
      readSimple g (← steps) ⟨r.line, [], [], []⟩
    else unexpected none

def readPiped (g : Grammar) : Nat → Reading (List Command)
  | 0 => return []
  | fuel + 1 => do
    if (← readToken g) = .pipe then
      expecting true true
      let command ← readCommand g
      return command :: (← readPiped g fuel)
    else
      putBack
      return []

def readPipeline (g : Grammar) : Reading Command := do
  let negated := (← readToken g) = .reserved "!"
  if negated then expecting false true else putBack
  let first ← readCommand g
  let command := match ← readPiped g (← steps) with
    | [] => first
    | others => .pipeline (first :: others)
  return if negated then .negation command else command

/-- Reads pipelines that depend on each other, behind the first. -/
def readDependent (g : Grammar) : Nat → Command → Reading Command
  | 0, first => return first
  | fuel + 1, first => do
    match ← readToken g with
    | .andIf =>
      expecting true true
      readDependent g fuel (.both first (← readPipeline g))
    | .orIf =>
      expecting true true
      readDependent g fuel (.either first (← readPipeline g))
    | _ =>
      putBack
      return first

def inBackground (command : Command) : Command :=
  match command with
  | .redirected line body redirections => .background line body redirections
  | _ => .background 0 command []

def following (before : Option Command) (command : Command) : Command :=
  match before with
  | none => command
  | some first => .sequence first command

def readList (g : Grammar) (span : Span) : Nat → Bool → Option Command → Reading Command
  | 0, _, before => return before.getD .nothing
  | fuel + 1, mayEnd, before => do
    expecting (span ≠ .line) true
    let atEnd : Reading Command := do
      readDocuments g
      putBack
      modify fun r => { r with token := .endOfFile }
      return before.getD .nothing
    let token ← readToken g
    if token = .newline then
      readDocuments g
      return before.getD .nothing
    else if token = .endOfFile then atEnd
    else
      putBack
      if span ≠ .line && mayEnd && token.endsList then return before.getD .nothing
      let command ← readDependent g (← steps) (← readPipeline g)
      let token ← readToken g
      let whole := following before (if token = .ampersand then inBackground command else command)
      match token with
      | .endOfFile =>
        readDocuments g
        putBack
        return whole
      | .newline =>
        putBack
        readList g span fuel true (some whole)
      | .ampersand | .semicolon => readList g span fuel true (some whole)
      | _ =>
        if span = .line then unexpected none
        putBack
        return whole

def grammar : Nat → Grammar
  | 0 => ⟨fun _ => return .nothing, return .nothing⟩
  | depth + 1 =>
    let g := grammar depth
    ⟨fun span => do readList g span (← steps) (span = .optional) none, readCommand g⟩

def maxDepth : Nat := 500

def next (r : Reader) : Except Complaint (Option Command × Reader) := do
  let r := { r with again := false, skipsLines := false, reserves := false, announced := [] }
  let (command, r) ← ((grammar maxDepth).list .line).run r
  if r.again && r.token = .endOfFile && command matches .nothing then return (none, r)
  else return (some command, r)

def isAtEnd (r : Reader) : Bool := r.again && r.token = .endOfFile

end TemporalDB.Shell.Reader
