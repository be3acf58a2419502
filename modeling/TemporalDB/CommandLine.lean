import TemporalDB.Path

/-!
# The command line

The words after the command's name say what to do: run a query, or build a unit. Options may stand
before and among the operands; after `--` every word is an operand.
-/

namespace TemporalDB

structure QueryRequest where
  schema : Path
  explain : Bool
  workDir : Option Path
  tableDir : Option Path
  sql : String
  params : List String
deriving DecidableEq

inductive Request where
  /-- Runs a query, configured by a file. -/
  | query (config : Path) (q : QueryRequest)
  | buildUnit (source artifact : Path)
  | help
  | version
deriving DecidableEq

namespace CommandLine

/-- An option: its name, its letter, and whether a value follows it. -/
structure OptionSpec where
  name : String
  letter : Option Char
  hasValue : Bool

inductive Item where
  | value (name value : String)
  | flag (name : String)
  | operand (s : String)
deriving DecidableEq

/-- Why reading ends early. -/
inductive Stop where
  | usage
  | help
  | version
deriving DecidableEq

/-- The option that gives the path of the configuration. It may stand anywhere. -/
def configOption : OptionSpec := ⟨"config", some 'c', true⟩

def helpOption : OptionSpec := ⟨"help", some 'h', false⟩

def versionOption : OptionSpec := ⟨"version", some 'V', false⟩

def leadingOptions : List OptionSpec := [configOption, helpOption, versionOption]

def queryOptions : List OptionSpec :=
  [configOption, helpOption, ⟨"schema", none, true⟩, ⟨"explain", none, false⟩,
    ⟨"work-dir", none, true⟩, ⟨"table-dir", none, true⟩]

def buildOptions : List OptionSpec := [configOption, helpOption]

/-- Whether a word is an operand. A single hyphen is. -/
def isOperand (word : String) : Bool := !word.startsWith "-" || word = "-"

/-- What a word that is an option says, together with the word after it; and whether that one was
used. -/
def readOption (options : List OptionSpec) (word : String) (next : Option String) :
    Except Stop (Item × Bool) :=
  let named (spec : Option OptionSpec) (attached : Option String) : Except Stop (Item × Bool) :=
    match spec with
    | none => .error .usage
    | some o =>
      if o.hasValue then
        match attached, next with
        | some v, _ => .ok (.value o.name v, false)
        | none, some v => if isOperand v then .ok (.value o.name v, true) else .error .usage
        | none, none => .error .usage
      else if attached.isSome then .error .usage
      else if o.name = "help" then .error .help
      else if o.name = "version" then .error .version
      else .ok (.flag o.name, false)
  match word.toList with
  | '-' :: '-' :: long =>
    let name := long.takeWhile (· ≠ '=')
    let attached := long.drop name.length
    named (options.find? fun o => o.name.toList = name)
      (if attached.isEmpty then none else some (String.ofList (attached.drop 1)))
  | '-' :: letter :: attached =>
    let attached := match attached with
      | '=' :: rest => some (String.ofList rest)
      | [] => none
      | s => some (String.ofList s)
    let spec := options.find? fun o => o.letter = some letter
    named spec (if spec.any (!·.hasValue) then none else attached)
  | _ => .error .usage

/-- Reads words up to an end that is told by a predicate on operands. -/
def scan (options : List OptionSpec) : List String → Except Stop (List Item)
  | [] => .ok []
  | "--" :: rest => .ok (rest.map .operand)
  | word :: rest =>
    if isOperand word then (scan options rest).map (.operand word :: ·)
    else match readOption options word rest.head? with
      | .error e => .error e
      | .ok (item, used) =>
        if used then
          match rest with
          | [] => .error .usage
          | _ :: rest => (scan options rest).map (item :: ·)
        else (scan options rest).map (item :: ·)

/-- Reads the options in front of a command; gives them, the command and the words after it. -/
def scanLeading : List String → Except Stop (List Item × String × List String)
  | [] | "--" :: _ => .error .usage
  | word :: rest =>
    if isOperand word then .ok ([], word, rest)
    else match readOption leadingOptions word rest.head? with
      | .error e => .error e
      | .ok (item, used) =>
        if used then
          match rest with
          | [] => .error .usage
          | _ :: rest => (scanLeading rest).map fun (items, found) => (item :: items, found)
        else (scanLeading rest).map fun (items, found) => (item :: items, found)

def valueOf (name : String) (items : List Item) : Except Stop (Option String) :=
  match items.filterMap fun
    | .value n v => if n = name then some v else none
    | _ => none with
  | [] => .ok none
  | [v] => if v.isEmpty then .error .usage else .ok (some v)
  | _ => .error .usage

def isGiven (name : String) (items : List Item) : Except Stop Bool :=
  match items.count (.flag name) with
  | 0 => .ok false
  | 1 => .ok true
  | _ => .error .usage

def operands (items : List Item) : List String :=
  items.filterMap fun
    | .operand s => some s
    | _ => none

def defaultConfig : String := "tempora.toml"

def readQuery (config : Path) (items : List Item) : Except Stop Request := do
  let schema ← valueOf "schema" items
  let explain ← isGiven "explain" items
  let workDir ← valueOf "work-dir" items
  let tableDir ← valueOf "table-dir" items
  match schema, operands items with
  | some schema, sql :: params =>
    .ok (.query config ⟨⟨schema⟩, explain, workDir.map Path.mk, tableDir.map Path.mk, sql, params⟩)
  | _, _ => .error .usage

def readRequest (words : List String) : Except Stop Request := do
  let (leading, command, rest) ← scanLeading words
  let outer ← valueOf configOption.name leading
  let configOf (items : List Item) : Except Stop Path := do
    let inner ← valueOf configOption.name items
    .ok ⟨(inner.orElse fun _ => outer).getD defaultConfig⟩
  if command = "query" then
    let items ← scan queryOptions rest
    readQuery (← configOf items) items
  else if command = "build-unit" then
    let items ← scan buildOptions rest
    let _ ← configOf items
    match operands items with
    | [source, artifact] =>
      if source.isEmpty || artifact.isEmpty then .error .usage
      else .ok (.buildUnit ⟨source⟩ ⟨artifact⟩)
    | _ => .error .usage
  else if command = "help" then
    match rest with
    | [] | ["query"] | ["build-unit"] | ["help"] => .ok .help
    | _ => .error .usage
  else .error .usage

def read (words : List String) : Option Request :=
  match readRequest words with
  | .ok r => some r
  | .error .help => some .help
  | .error .version => some .version
  | .error .usage => none

end CommandLine

end TemporalDB
