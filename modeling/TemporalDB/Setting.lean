import TemporalDB.Binary64
import TemporalDB.Configuration
import TemporalDB.Text.Blank
import TemporalDB.Text.Caseless

/-!
# Settings

A configuration is put together from sources: a file, and variables of the environment above it.
Names count without regard to case, a later source goes before an earlier one, and tables are merged
entry by entry. A name may lead into tables by dots and into lists by numbers in brackets. What no
source says is as by default.
-/

namespace TemporalDB

open Text

inductive Setting where
  /-- There is a setting, but it says nothing. -/
  | nothing
  /-- A scalar, as a text. -/
  | text (s : String)
  /-- A scalar that is not a text: how it is shown, and its truth value. -/
  | scalar (shown : String) (truth : Bool)
  | list (items : List Setting)
  | table (entries : List (String × Setting))

namespace Setting

def ofInt (n : Int) : Setting := scalar (showInt n) (n ≠ 0)

def ofReal (x : Binary64) : Setting := scalar x.text (!x.isZero)

def ofBool (b : Bool) : Setting := scalar (if b then "true" else "false") b

def lookup (name : String) (entries : List (String × Setting)) : Option Setting :=
  (entries.find? fun e => e.1 = name).map (·.2)

def put (name : String) (s : Setting) (entries : List (String × Setting)) :
    List (String × Setting) :=
  (name, s) :: entries.filter fun e => e.1 ≠ name

/-- The entries of a table. Anything else has none. -/
def entries : Setting → List (String × Setting)
  | table es => es
  | _ => []

/-- The items of a list. Anything else has none. -/
def items : Setting → List Setting
  | list l => l
  | _ => []

/-- A name in small letters. Besides the capitals of ASCII only the sign of the unit kelvin has a
small letter of ASCII, and no name that counts has other letters. -/
def small (name : String) : String :=
  String.ofList (name.toList.map fun c => if c = '\u212A' then 'k' else c.toLower)

/-! ## Laying settings over each other -/

mutual

/-- A setting laid over another one: tables are joined, and anything else takes the place. An empty
table changes nothing. -/
def mergedOnto (new : Setting) (old : Option Setting) : Setting :=
  match new, old with
  | table [], old => old.getD (table [])
  | table (e :: rest), old => table (mergeEntries (e :: rest) ((old.map entries).getD []))
  | new, _ => new

def mergeEntries : List (String × Setting) → List (String × Setting) → List (String × Setting)
  | [], before => before
  | (name, new) :: rest, before =>
    mergeEntries rest (put (small name) (mergedOnto new (lookup (small name) before)) before)

end

/-- A step to a setting inside of another one. -/
inductive Step where
  | name (s : String)
  /-- An item of a list, counted from its end if the number is negative. -/
  | item (n : Int)
deriving DecidableEq

/-- Whether a character may stand in a name that leads to a setting. -/
def inStep (c : Char) : Bool := c.isAlphanum || c = '_' || c = '-' || c = ' '

def itemOf (s : List Char) : Option Int := do
  let isSpace (c : Char) : Bool := c = ' ' || c = '\t'
  let s := ((s.dropWhile isSpace).reverse.dropWhile isSpace).reverse
  let n ← if s.head? = some '+' then none else readInteger s
  (int64? n).map fun _ => n

/-- The steps that a text says after its first name. -/
def readSteps : Nat → List Char → Option (List Step)
  | _, [] => some []
  | 0, _ => none
  | fuel + 1, '.' :: rest => do
    let name := rest.takeWhile inStep
    if name.isEmpty then none
    else some (.name (String.ofList name) :: (← readSteps fuel (rest.drop name.length)))
  | fuel + 1, '[' :: rest => do
    let inner := rest.takeWhile (· ≠ ']')
    match rest.drop inner.length with
    | _ :: rest => some (.item (← itemOf inner) :: (← readSteps fuel rest))
    | [] => none
  | _ + 1, _ => none

/-- The steps that a text says. What does not say any is a name as a whole. -/
def stepsOf (text : String) : List Step :=
  let s := text.toList
  let name := s.takeWhile inStep
  let steps := if name.isEmpty then none
    else (readSteps s.length (s.drop name.length)).map (.name (String.ofList name) :: ·)
  steps.getD [.name text]

def indexOf (n : Int) (length : Nat) : Nat :=
  if 0 ≤ n then n.toNat else length - n.natAbs

def putItem (index : Nat) (s : Setting) (l : List Setting) : List Setting :=
  (l ++ List.replicate (index + 1 - l.length) nothing).set index s

/-- A setting with another one laid over what steps lead to. On the way what is no table or list
becomes one. Only the last name counts without regard to case. -/
def lay (new : Setting) : List Step → Setting → Setting
  | [], _ => new
  | [.name name], s => table (mergeEntries [(name, new)] s.entries)
  | .name name :: rest, s =>
    table (put name (lay new rest ((lookup name s.entries).getD nothing)) s.entries)
  | .item n :: rest, s =>
    let index := indexOf n s.items.length
    list (putItem index (lay new rest (s.items[index]?.getD nothing)) s.items)

def layer (before : List (String × Setting)) (source : List (String × Setting)) :
    List (String × Setting) :=
  (source.foldl (fun s (name, new) => lay new (stepsOf name) s) (table before)).entries

/-! ## Reading settings -/

/-- A text. Other scalars are taken as they are shown. -/
def asText : Setting → Option String
  | text s => some s
  | scalar shown _ => some shown
  | _ => none

/-- A truth value, or a text or a number that stands for one. -/
def asFlag : Setting → Option Bool
  | scalar _ truth => some truth
  | text s =>
    let s := foldCase s
    if ["1", "true", "on", "yes"].contains s then some true
    else if ["0", "false", "off", "no"].contains s then some false
    else none
  | _ => none

def asStrictText : Setting → Option String
  | text s => some s
  | _ => none

def asTexts : Setting → Option (List String)
  | list items => items.mapM asStrictText
  | _ => none

/-- The toolchain that a setting is: a table, or a list of its kind and its parts in order. -/
def asToolchain : Setting → Option Toolchain
  | table entries => do
    let kind ← asStrictText (← lookup "kind" entries)
    if kind = "in_process" then some .inProcess
    else if kind = "command" then
      some (.command (← asStrictText (← lookup "program" entries))
        (← asTexts (← lookup "args" entries)))
    else none
  | list (kind :: parts) => do
    match ← asStrictText kind, parts with
    | "in_process", [] => some .inProcess
    | "command", [program, args] => some (.command (← asStrictText program) (← asTexts args))
    | _, _ => none
  | _ => none

def defaulting {α : Type} (decode : Setting → Option α) (default : α) :
    Option Setting → Option α
  | none => some default
  | some s => decode s

def toConfiguration (settings : List (String × Setting)) : Option Configuration := do
  let d := Configuration.default
  some {
    workDir := ⟨← defaulting asText d.workDir.text (lookup "work_dir" settings)⟩
    tableDir := ⟨← defaulting asText d.tableDir.text (lookup "table_dir" settings)⟩
    definitionName := ← defaulting asText d.definitionName (lookup "definition_name" settings)
    keepUnitsOpen := ← defaulting asFlag d.keepUnitsOpen (lookup "keep_units_open" settings)
    toolchain := ← defaulting asToolchain d.toolchain (lookup "toolchain" settings) }

/-- The settings of environment variables: those whose names begin with `TEMPORA_`. -/
def ofEnvironment (environment : List (String × String)) : List (String × Setting) :=
  environment.filterMap fun (name, value) =>
    let name := (small name).toList
    if "tempora_".toList.isPrefixOf name then some (String.ofList (name.drop 8), text value)
    else none

end Setting

end TemporalDB
