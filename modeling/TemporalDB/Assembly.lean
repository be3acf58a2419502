import TemporalDB.Listing
import TemporalDB.Program

/-!
# Assembling listings

A listing is assembled line by line to a unit. Only the listing itself is checked: whether the
columns that it names are there is found out when the unit runs.
-/

namespace TemporalDB

open Text Listing

inductive Assembly.Fault where
  | token (fault : TokenFault)
  /-- The listing ends where a line was expected. -/
  | endOfListing (expected : String)
  /-- A word was expected than a string or the end of the line. -/
  | notWord (found : Option String)
  /-- A string was expected than a word or the end of the line. -/
  | notString (found : Option String)
  | notKeyword (expected found : String)
  | notNumber (found : String)
  | notOperand (found : String)
  | notTemporality (found : String)
  | unknownComparison (found : String)
  | scalar (cause : ScalarError)
  | trailing (found : Token)
  | unknownKind (found : String)
  | contentAfterEnd
  | keyNotDeclared (column : String)
  | emptyKey
  | secondSeek
  | emptySeek
  | unknownClause (found : String)
  | unknownOperation (found : String)
  | clauseNotAllowed (clause operation : String)
  | updateWithoutSet
  | selectWithoutProject
deriving DecidableEq

def Assembly.Fault.message : Assembly.Fault → String
  | token fault => fault.message
  | endOfListing expected => "unexpected end of listing, expected " ++ expected
  | notWord (some s) => "expected a word, found string " ++ quoted s
  | notWord none => "expected a word, found end of line"
  | notString (some w) => "expected a string, found " ++ quoted w
  | notString none => "expected a string, found end of line"
  | notKeyword expected found => "expected " ++ expected ++ ", found " ++ quoted found
  | notNumber found => "expected a number, found " ++ quoted found
  | notOperand found => "expected param or const, found " ++ quoted found
  | notTemporality found => "expected temporal or plain, found " ++ quoted found
  | unknownComparison found => "unknown comparison " ++ quoted found
  | scalar cause => cause.message
  | trailing found => "unexpected trailing " ++ found.display
  | unknownKind found => "unknown unit kind " ++ quoted found
  | contentAfterEnd => "content after end of unit"
  | keyNotDeclared column => "key column " ++ quoted column ++ " is not declared"
  | emptyKey => "empty key"
  | secondSeek => "second seek"
  | emptySeek => "seek without key values"
  | unknownClause found => "unknown clause " ++ quoted found
  | unknownOperation found => "unknown operation " ++ quoted found
  | clauseNotAllowed clause operation => clause ++ " is not valid in " ++ operation
  | updateWithoutSet => "update without set"
  | selectWithoutProject => "select without project"

structure AssemblyError where
  line : Nat
  fault : Assembly.Fault
deriving DecidableEq

def AssemblyError.message (e : AssemblyError) : String :=
  "line " ++ showNat e.line ++ ": " ++ e.fault.message

namespace Assembly

/-! ## Tokens of one line -/

/-- Takes tokens from the front of a line, or stops at a fault. -/
abbrev LineParser := StateT (List Token) (Except Fault)

def refuse {α : Type} (fault : Fault) : LineParser α := fun _ => .error fault

def word : LineParser String
  | .word w :: rest => .ok (w, rest)
  | .quoted s :: _ => .error (.notWord (some s))
  | [] => .error (.notWord none)

def string : LineParser String
  | .quoted s :: rest => .ok (s, rest)
  | .word w :: _ => .error (.notString (some w))
  | [] => .error (.notString none)

def keyword (expected : String) : LineParser PUnit := do
  let found ← word
  if found = expected then pure () else refuse (.notKeyword expected found)

/-- Takes the next token if it is the given word. -/
def optionalKeyword (expected : String) : LineParser Bool
  | .word w :: rest => if w = expected then .ok (true, rest) else .ok (false, .word w :: rest)
  | tokens => .ok (false, tokens)

def finish : LineParser PUnit
  | [] => .ok ((), [])
  | t :: _ => .error (.trailing t)

def index : LineParser Nat := do
  let w ← word
  match readCount bound64 w.toList with
  | some n => pure n
  | none => refuse (.notNumber w)

def scalarType : LineParser ScalarType := do
  match ScalarType.read (← word) with
  | .ok type => pure type
  | .error e => refuse (.scalar e)

/-- The comparison of a sign; inequality has two. -/
def comparatorOf (w : String) : Option Comparator :=
  if w = "=" then some .eq
  else if w = "<>" || w = "!=" then some .notEq
  else if w = "<" then some .lt
  else if w = "<=" then some .ltEq
  else if w = ">" then some .gt
  else if w = ">=" then some .gtEq
  else none

def comparator : LineParser Comparator := do
  let w ← word
  match comparatorOf w with
  | some op => pure op
  | none => refuse (.unknownComparison w)

/-- An operand: a parameter and its type, or a type and the text of a value. -/
def operand : LineParser Operand := do
  let w ← word
  if w = "param" then
    let i ← index
    let type ← scalarType
    pure (.param i type)
  else if w = "const" then
    let type ← scalarType
    let text ← string
    match type.readValue text with
    | .ok v => pure (.const type v)
    | .error e => refuse (.scalar e)
  else refuse (.notOperand w)

/-- Items up to the end of the line, at most `bound` of them. -/
def manyUpTo {α : Type} (item : LineParser α) : Nat → LineParser (List α)
  | 0 => pure []
  | bound + 1 => do
    if (← get).isEmpty then pure []
    else
      let first ← item
      let others ← manyUpTo item bound
      pure (first :: others)

/-- Items up to the end of the line. Every item takes a token. -/
def many {α : Type} (item : LineParser α) : LineParser (List α) :=
  fun tokens => manyUpTo item tokens.length tokens

/-- Runs a parser over a line; what it leaves of the line is not looked at. -/
def onLine {α : Type} (p : LineParser α) (l : Line) : Except AssemblyError α :=
  match p l.tokens with
  | .ok (a, _) => .ok a
  | .error fault => .error ⟨l.number, fault⟩

/-! ## Lines -/

/-- The lines that are left, and the number of the last line of the listing. -/
structure Cursor where
  rest : List Line
  lastLine : Nat

/-- Takes lines from the front, or stops at an error. -/
abbrev Assembler := StateT Cursor (Except AssemblyError)

def ofExcept {α : Type} (r : Except AssemblyError α) : Assembler α := fun c => r.map (·, c)

def line (expected : String) : Assembler Line := fun c =>
  match c.rest with
  | l :: rest => .ok (l, { c with rest })
  | [] => .error ⟨c.lastLine, .endOfListing expected⟩

def lineOf {α : Type} (expected : String) (p : LineParser α) : Assembler α := do
  ofExcept (onLine p (← line expected))

def Cursor.keyword? (c : Cursor) : Option String :=
  match c.rest with
  | ⟨_, .word w :: _⟩ :: _ => some w
  | _ => none

/-- The next lines, as long as they begin with a keyword; `bound` is at least the number of lines
that are left. -/
def linesUpTo {α : Type} (first : String) (p : LineParser α) : Nat → Assembler (List α)
  | 0 => pure []
  | bound + 1 => do
    if (← get).keyword? = some first then
      let a ← lineOf first p
      let others ← linesUpTo first p bound
      pure (a :: others)
    else pure []

/-- The next lines, as long as they begin with a keyword. -/
def linesOf {α : Type} (first : String) (p : LineParser α) : Assembler (List α) :=
  fun c => linesUpTo first p c.rest.length c

/-! ## Definitions -/

def exportLine : LineParser String := do
  keyword "export"
  let symbol ← word
  finish
  pure symbol

def relationLine : LineParser (String × Bool) := do
  keyword "relation"
  let name ← string
  let w ← word
  let temporal ←
    if w = "temporal" then pure true
    else if w = "plain" then pure false
    else refuse (.notTemporality w)
  finish
  pure (name, temporal)

def columnLine : LineParser Column := do
  keyword "column"
  let name ← string
  let type ← scalarType
  let notNull ← optionalKeyword "notnull"
  finish
  pure ⟨name, type, notNull⟩

/-- The place of a column of the key, which must be declared under just that name. -/
def keyColumn (columns : List Column) : LineParser Nat := do
  let name ← string
  match columns.findIdx? fun c => c.name = name with
  | some i => pure i
  | none => refuse (.keyNotDeclared name)

def keyLine (columns : List Column) : LineParser (List Nat) := do
  keyword "key"
  let key ← many (keyColumn columns)
  if key.isEmpty then refuse .emptyKey else pure key

def endLine : LineParser PUnit := do
  keyword "end"
  finish

def relation : Assembler Relation := do
  let (name, temporal) ← lineOf "relation" relationLine
  let columns ← linesOf "column" columnLine
  let key ← lineOf "key" (keyLine columns)
  lineOf "end" endLine
  pure ⟨name, columns, key, temporal⟩

/-- Relations as long as a line begins with a word, at most `bound` of them. -/
def relationsUpTo : Nat → Assembler (List Relation)
  | 0 => pure []
  | bound + 1 => do
    if (← get).keyword?.isSome then
      let r ← relation
      let others ← relationsUpTo bound
      pure (r :: others)
    else pure []

def definition : Assembler Schema := fun c => do
  let (relations, c) ← relationsUpTo c.rest.length c
  .ok (⟨relations⟩, c)

/-! ## Queries -/

inductive Clause where
  | set (column : Nat) (value : Operand)
  | seek (key : List Operand)
  | filter (f : Filter)
  | project (columns : List Nat)
  | asOf (value : Operand)

def Clause.keyword : Clause → String
  | set .. => "set"
  | seek _ => "seek"
  | filter _ => "filter"
  | project _ => "project"
  | asOf _ => "asof"

/-- A clause, or the end of the operation. A second seek is refused at once. -/
def clauseLine (seekSeen : Bool) : LineParser (Option Clause) := do
  let w ← word
  let clause ←
    if w = "end" then pure none
    else if w = "set" then do
      let column ← index
      let value ← operand
      pure (some (.set column value))
    else if w = "seek" then do
      if seekSeen then refuse .secondSeek
      let key ← many operand
      if key.isEmpty then refuse .emptySeek else pure (some (.seek key))
    else if w = "filter" then do
      let column ← index
      let op ← comparator
      let value ← operand
      pure (some (.filter ⟨column, op, value⟩))
    else if w = "project" then do
      let columns ← many index
      pure (some (.project columns))
    else if w = "asof" then do
      let value ← operand
      pure (some (.asOf value))
    else refuse (.unknownClause w)
  finish
  pure clause

/-- The clauses up to the end of the operation, each with the number of its line; `bound` is at
least the number of lines that are left. -/
def clausesUpTo : Nat → Bool → Assembler (List (Clause × Nat))
  | 0, _ => do
    let _ ← line "clause or end"
    pure []
  | bound + 1, seekSeen => do
    let l ← line "clause or end"
    match ← ofExcept (onLine (clauseLine seekSeen) l) with
    | none => pure []
    | some clause =>
      let seekSeen := seekSeen || clause matches .seek _
      let others ← clausesUpTo bound seekSeen
      pure ((clause, l.number) :: others)

def allowedClauses (operation : String) : Option (List String) :=
  if operation = "insert" then some ["set"]
  else if operation = "update" then some ["set", "seek", "filter"]
  else if operation = "delete" then some ["seek", "filter"]
  else if operation = "select" then some ["project", "asof", "seek", "filter"]
  else none

def setsOf (cs : List Clause) : List (Nat × Operand) :=
  cs.filterMap fun
    | .set column value => some (column, value)
    | _ => none

def accessOf (cs : List Clause) : Access :=
  ⟨cs.findSome? fun
      | .seek key => some key
      | _ => none,
    cs.filterMap fun
      | .filter f => some f
      | _ => none⟩

def projectionOf (cs : List Clause) : Option (List Nat) :=
  cs.reverse.findSome? fun
    | .project columns => some columns
    | _ => none

def asOfOf (cs : List Clause) : Option Operand :=
  cs.reverse.findSome? fun
    | .asOf value => some value
    | _ => none

def operationOf (operation : String) (number : Nat) (clauses : List (Clause × Nat)) :
    Except AssemblyError Operation :=
  match allowedClauses operation with
  | none => .error ⟨number, .unknownOperation operation⟩
  | some allowed =>
    match clauses.find? fun c => !allowed.contains c.1.keyword with
    | some (clause, place) => .error ⟨place, .clauseNotAllowed clause.keyword operation⟩
    | none =>
      let cs := clauses.map (·.1)
      if operation = "insert" then .ok (.insert (setsOf cs))
      else if operation = "update" then
        if (setsOf cs).isEmpty then .error ⟨number, .updateWithoutSet⟩
        else .ok (.update (setsOf cs) (accessOf cs))
      else if operation = "delete" then .ok (.delete (accessOf cs))
      else match projectionOf cs with
        | none => .error ⟨number, .selectWithoutProject⟩
        | some projection => .ok (.select projection (asOfOf cs) (accessOf cs))

def paramsLine : LineParser Nat := do
  keyword "params"
  let n ← index
  finish
  pure n

def tableLine : LineParser String := do
  keyword "table"
  let name ← string
  finish
  pure name

def operationLine : LineParser (String ⊕ String) := do
  let w ← word
  if w = "explain" then
    let text ← string
    finish
    pure (.inr text)
  else
    finish
    pure (.inl w)

def query : Assembler QueryProgram := do
  let params ← lineOf "params" paramsLine
  let table ← lineOf "table" tableLine
  let l ← line "operation"
  match ← ofExcept (onLine operationLine l) with
  | .inr text => pure ⟨params, table, .explain text⟩
  | .inl operation =>
    let clauses ← clausesUpTo (← get).rest.length false
    let op ← ofExcept (operationOf operation l.number clauses)
    pure ⟨params, table, .execute op⟩

/-! ## Units -/

def unitLine : LineParser String := do
  keyword "unit"
  let kind ← word
  finish
  pure kind

def compiledUnit : Assembler CompiledUnit := do
  let header ← line "unit header"
  let kind ← ofExcept (onLine unitLine header)
  let exports ← linesOf "export" exportLine
  let program ←
    if kind = "definition" then Program.definition <$> definition
    else if kind = "query" then Program.query <$> query
    else ofExcept (.error ⟨header.number, .unknownKind kind⟩)
  match (← get).rest with
  | l :: _ => ofExcept (.error ⟨l.number, .contentAfterEnd⟩)
  | [] => pure ⟨abiVersion, exports, program⟩

/-- The unit of lines, the last of which in the listing has the number `lastLine`. -/
def assembleLines (ls : List Line) (lastLine : Nat) : Except AssemblyError CompiledUnit :=
  (compiledUnit ⟨ls, lastLine⟩).map (·.1)

def assemble (listing : String) : Except AssemblyError CompiledUnit :=
  match readLines listing with
  | .error (number, fault) => .error ⟨number, .token fault⟩
  | .ok ls => assembleLines ls (lines listing.toList).length

end Assembly

end TemporalDB
