import TemporalDB.Shell.Reader.Basic

/-!
# Reading words

Within a word, quotes, parameters, arithmetic and commands open and close. A word is read piece by
piece, with the levels that are open; a document is read like a word in double quotes.
-/

namespace TemporalDB.Shell.Reader

inductive Manner where
  | plain
  | double
  | single
  | arithmetic
deriving DecidableEq

/-- What is open within a word. -/
structure Level where
  manner : Manner
  /-- Whether double quotes are open. -/
  doubled : Bool
  /-- Whether double quotes are open within a parameter. -/
  innerDoubled : Bool
  /-- How many parameters are open. -/
  nest : Nat
  /-- How many of them are within double quotes. -/
  doubledNest : Nat
  /-- How many brackets are open. -/
  brackets : Nat
  /-- Whether the level is that of a parameter. -/
  ofParameter : Bool

def Level.ofManner (manner : Manner) : Level :=
  ⟨manner, manner = .double || manner = .arithmetic, false, 0, 0, 0, false⟩

def endsWord (c : Char) : Bool := " \t\n<>();&|".toList.contains c

def readRedirecting : Reading (Redirecting × Nat) := do
  if ← skipIf '>' then
    if ← skipIf '>' then return (.file .append, 1)
    else if ← skipIf '|' then return (.file .replace, 1)
    else if ← skipIf '&' then return (.same, 1)
    else return (.file .create, 1)
  else
    skip
    if ← skipIf '<' then return (.document (← skipIf '-'), 0)
    else if ← skipIf '&' then return (.same, 0)
    else if ← skipIf '>' then return (.file .update, 0)
    else return (.file .read, 0)

/-- What a character in a word does. -/
inductive Role where
  | itself
  | quoted
  | lineEnd
  | escape
  | openSingle
  | openDouble
  | closeQuotes
  | dollar
  | backquote
  | brace
  | openBracket
  | closeBracket
  | ending

def roleOf (manner : Manner) (c : Char) : Role :=
  if c = '\n' then .lineEnd
  else match manner with
    | .single => if c = '\'' then .closeQuotes else .quoted
    | .plain | .double | .arithmetic =>
      match c with
      | '\\' => .escape
      | '\x60' => .backquote
      | '$' => .dollar
      | '\x7d' => .brace
      | _ =>
        match manner with
        | .plain =>
          if c = '\'' then .openSingle
          else if c = '"' then .openDouble
          else if endsWord c then .ending
          else .itself
        | .double => if c = '"' then .closeQuotes else .quoted
        | _ => if c = '(' then .openBracket else if c = ')' then .closeBracket else .itself

def Level.toggled (l : Level) : Level :=
  if l.nest = 0 then l else { l with innerDoubled := !l.innerDoubled }

/-- The pieces of a word so far, the last one first, and whether anything in it was quoted. -/
structure Draft where
  pieces : List Piece
  isQuoted : Bool

def Draft.with (d : Draft) (piece : Piece) : Draft := { d with pieces := piece :: d.pieces }

def Draft.stream? (d : Draft) : Option (Option Nat) :=
  if d.isQuoted then none
  else match d.pieces with
    | [] => some none
    | [.char c _] => if c.isDigit then some (some (c.toNat - '0'.toNat)) else none
    | _ => none

def openParameter (level : Level) (levels : List Level) (d : Draft)
    (parameter : List Char × Form × Bool) : List Level × Draft :=
  let (name, form, emptyIsNone) := parameter
  let manner := match form with
    | .trim _ => .plain
    | _ => if level.manner = .arithmetic then .double else level.manner
  let d := d.with (.opening name form emptyIsNone)
  let nested (l : Level) : Level :=
    { l with nest := l.nest + 1,
             doubledNest := if l.doubled then l.doubledNest + 1 else l.doubledNest }
  if manner ≠ level.manner || level.innerDoubled then
    (nested { Level.ofManner manner with ofParameter := true, doubled := manner ≠ .plain }
      :: level :: levels, d)
  else (nested level :: levels, d)

def closeParameter (level : Level) (levels : List Level) : List Level :=
  if level.nest = 1 && level.ofParameter then levels
  else
    { level with nest := level.nest - 1, doubledNest := level.doubledNest - 1 } :: levels

/-- Complains about a word that the end of the script leaves open. -/
def checkClosed (level : Level) (inDocument : Bool) : Reading Unit := do
  if level.manner = .arithmetic then complain "Missing '))'"
  else if level.manner ≠ .plain && !inDocument then complain "Unterminated quoted string"
  else if level.nest ≠ 0 then complain "Missing '\x7d'"

/-! ## Commands within words -/

/-- How a list of commands ends. -/
inductive Span where
  /-- At the end of the line. -/
  | line
  /-- Before a token that ends a list; there is a command. -/
  | body
  /-- Before a token that ends a list; there may be no command. -/
  | optional
deriving DecidableEq

/-- The readers of commands within commands. -/
structure Grammar where
  list : Span → Reading Command
  command : Reading Command

def steps : Reading Nat := return 2 * (← get).rest.length + 4

/-- What stands before the next backquote, and what follows it. Some backslashes give way. -/
def untilBackquote (doubled : Bool) : List Char → Option (List Char × Nat × List Char)
  | [] => none
  | '\x60' :: rest => some ([], 0, rest)
  | '\\' :: c :: rest => do
    let (s, n, rest) ← untilBackquote doubled rest
    if c = '\n' then some (s, n + 1, rest)
    else if c = '\\' || c = '\x60' || c = '$' || (c = '"' && doubled) then some (c :: s, n, rest)
    else some ('\\' :: c :: s, n, rest)
  | c :: rest => do
    let (s, n, rest) ← untilBackquote doubled rest
    some (c :: s, if c = '\n' then n + 1 else n, rest)

/-- The command between backquotes. Its lines are counted anew. -/
def readBackquoted (g : Grammar) (doubled : Bool) : Reading Command := do
  skip
  let r ← get
  match untilBackquote doubled r.rest with
  | none =>
    modify fun r => { r with line := r.line + r.rest.count '\n' }
    complain "EOF in backquote substitution"
  | some (text, n, rest) =>
    set { r with rest := text, line := 1 }
    let body ← g.list .optional
    modify fun inner => { inner with rest, line := r.line + n, again := false }
    return body

def readOutput (g : Grammar) : Reading Command := do
  let waiting := (← get).announced
  modify fun r => { r with announced := [] }
  let body ← g.list .optional
  modify fun r => { r with again := false, announced := waiting }
  if (← get).token = .close then return body else unexpected (some .close)

def readDollar (g : Grammar) (level : Level) (levels : List Level) (d : Draft) :
    Reading (List Level × Draft) := do
  skip
  let same (piece : Piece) : List Level × Draft := (level :: levels, d.with piece)
  let c ← peek
  if (← get).marksEnd then return same (.char '$' false)
  else match c with
    | none => return same (.char '$' false)
    | some '(' =>
      skip
      if ← skipIf '(' then
        return (.ofManner .arithmetic :: level :: levels, d.with .openingArithmetic)
      else return same (.output (← readOutput g))
    | some '\x7b' =>
      skip
      let parameter ← readBraced (← steps)
      match parameter with
      | (name, .plain, false) => return same (.parameter name)
      | _ => return openParameter level levels d parameter
    | some c =>
      if beginsName c then return same (.parameter (← many inName (← steps)))
      else if isSpecialParameter c then
        skip
        return same (.parameter [c])
      else return same (.char '$' false)

def readEscaped (level : Level) (inDocument : Bool) (d : Draft) : Reading Draft := do
  skip
  match ← peekRaw with
  | none => return d.with (.char '\\' true)
  | some c =>
    skip
    let open' := level.nest ≠ 0
    let stays := level.doubled && c ≠ '\\' && c ≠ '\x60' && c ≠ '$' &&
      (c ≠ '"' || (inDocument && !open')) && (c ≠ '\x7d' || !open')
    let d := if stays then d.with (.char '\\' true) else d
    return { d.with (.char c true) with isQuoted := true }

def closeBracket (level : Level) (levels : List Level) (d : Draft) :
    Reading (List Level × Draft) := do
  skip
  if 0 < level.brackets then
    return ({ level with brackets := level.brackets - 1 } :: levels, d.with (.char ')' false))
  else if ← skipIf ')' then return (levels, d.with .closingArithmetic)
  else return (level :: levels, d.with (.char ')' false))

def closeQuotes (level : Level) (levels : List Level) (c : Char) (inDocument : Bool) (d : Draft) :
    List Level × Draft :=
  if inDocument && level.nest = 0 then (level :: levels, d.with (.char c true))
  else
    let level := if level.doubledNest = 0 then
      { level with manner := .plain, doubled := false } else level
    let level := if c = '"' then level.toggled else level
    (level :: levels, { (if inDocument then d else d.with .mark) with isQuoted := true })

def readPieces (g : Grammar) (ending : Option Announced) :
    Nat → List Level → Draft → Reading Draft
  | 0, _, d | _, [], d => return d
  | fuel + 1, level :: levels, d => do
    let inDocument := ending.isSome
    match ← if level.manner = .single then peekRaw else peek with
    | none =>
      checkClosed level inDocument
      return d
    | some c =>
      let character (quoted : Bool) : Reading Draft := do
        skip
        readPieces g ending fuel (level :: levels) (d.with (.char c quoted))
      let marked (level : Level) : Reading Draft := do
        skip
        readPieces g ending fuel (level :: levels) (if inDocument then d else d.with .mark)
      match roleOf level.manner c with
      | .itself => character false
      | .quoted => character true
      | .ending => if level.nest = 0 then return d else character false
      | .lineEnd =>
        if level.manner = .plain && level.nest = 0 then return d
        else
          skip
          let d := d.with (.char '\n' (level.manner ≠ .plain))
          if inDocument then passJoins
          let r ← get
          match ending.bind (behindEnding · r.rest) with
          | some rest =>
            set { r with rest, line := r.line + 1 }
            checkClosed level inDocument
            return d
          | none =>
            if ending.any (·.unindented) then
              set { r with rest := r.rest.dropWhile (· = '\t') }
            readPieces g ending fuel (level :: levels) d
      | .escape => readPieces g ending fuel (level :: levels) (← readEscaped level inDocument d)
      | .openSingle => marked { level with manner := .single }
      | .openDouble => marked { level with manner := .double, doubled := true }.toggled
      | .closeQuotes =>
        skip
        let (levels, d) := closeQuotes level levels c inDocument d
        readPieces g ending fuel levels d
      | .dollar =>
        let (levels, d) ← readDollar g level levels d
        readPieces g ending fuel levels d
      | .backquote =>
        if (← get).marksEnd then character false
        else
          let body ← readBackquoted g level.doubled
          readPieces g ending fuel (level :: levels) (d.with (.output body))
      | .brace =>
        if !level.innerDoubled && 0 < level.nest then
          skip
          readPieces g ending fuel (closeParameter level levels) (d.with .closing)
        else character (level.manner ≠ .plain)
      | .openBracket =>
        skip
        readPieces g ending fuel ({ level with brackets := level.brackets + 1 } :: levels)
          (d.with (.char c false))
      | .closeBracket =>
        let (levels, d) ← closeBracket level levels d
        readPieces g ending fuel levels d

/-- The text of a document that is taken as it stands, and what follows it. -/
def literalDocument (a : Announced) : Nat → List Char → List Char × Nat × List Char
  | 0, text => ([], 0, text)
  | fuel + 1, text =>
    match behindEnding a text with
    | some rest => ([], 1, rest)
    | none =>
      let text := if a.unindented then text.dropWhile (· = '\t') else text
      let line := text.takeWhile (· ≠ '\n')
      match text.drop line.length with
      | [] => (line, 0, [])
      | c :: rest =>
        let (more, n, rest) := literalDocument a fuel rest
        (line ++ c :: more, n + 1, rest)

def readDocument (g : Grammar) (a : Announced) : Reading (List Part) := do
  if !a.literal then passJoins
  let r ← get
  if a.literal then
    let (text, n, rest) := literalDocument a (r.rest.length + 1) r.rest
    set { r with rest, line := r.line + n }
    return text.map (.char · true)
  else match behindEnding a r.rest with
    | some rest =>
      set { r with rest, line := r.line + 1 }
      return []
    | none =>
      if a.unindented then set { r with rest := r.rest.dropWhile (· = '\t') }
      let d ← readPieces g (some a) (← steps) [.ofManner .double] ⟨[], false⟩
      return wordOf d.pieces.reverse

def readDocuments (g : Grammar) : Reading Unit := do
  let announced := (← get).announced
  modify fun r => { r with announced := [] }
  for a in announced do
    let document ← readDocument g a
    modify fun r => { r with documents := r.documents.setIfInBounds a.number document }

end TemporalDB.Shell.Reader
