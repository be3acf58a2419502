import TemporalDB.FileTree
import TemporalDB.Shell.Number
import TemporalDB.Shell.Syntax

/-!
# The state of running programs

A program works on what it shares with the others, the world, and on what is its own, the session:
variables, functions, streams, the status of its last command. `Run` is what a program does; it may
stop the program. Texts of programs are bytes as characters.
-/

namespace TemporalDB.Shell

open Text

/-! ## The world -/

/-- Where a stream leads. -/
inductive Channel where
  /-- Takes everything and gives nothing. -/
  | nothing
  /-- The errors that are shown. -/
  | errors
  /-- What has been written and not yet read. -/
  | buffer (content : ByteArray)
  | directory
  /-- A file, the place in it, and whether writing goes to its end, and what may be done. -/
  | file (place : List String) (offset : Nat) (appends reads writes : Bool)

/-- What programs share. -/
structure World where
  files : FileTree
  channels : Array Channel
  errors : ByteArray
  /-- The documents of scripts. -/
  documents : Array (List Part)
  /-- The number of the next process. -/
  nextProcess : Nat
  /-- The processes that have not ended. -/
  living : List Nat
  /-- Signals that processes have not yet noticed. -/
  signals : List (Nat × Nat)
  /-- The files that may be run. -/
  programs : List (List String)

/-! ## The session -/

structure Variable where
  value : Option String
  exported : Bool
  readOnly : Bool

/-- What is passed over on the way out of loops and functions. -/
inductive Leaving where
  | nothing
  | loops (count : Nat) (again : Bool)
  | function
deriving DecidableEq

/-- What is a program's own. -/
structure Session where
  /-- The name under which the program runs. -/
  name : String
  /-- The command that complains, if it is not the program. -/
  command : Option String
  /-- The line of the command. -/
  line : Nat
  parameters : List String
  bindings : List (String × Variable)
  functions : List (String × Command)
  /-- The options that are set, by their letters. -/
  options : List Char
  /-- The channels of the streams, by their numbers. -/
  streams : List (Nat × Nat)
  directory : List String
  /-- The status of the last command. -/
  status : Nat
  /-- The status of the last command whose output a word has taken in. -/
  outputStatus : Nat
  leaving : Leaving
  /-- How many loops are running. -/
  loops : Nat
  /-- How many functions are running. -/
  calls : Nat
  /-- The variables that functions hide, and what they were. -/
  hidden : List (List (String × Option Variable))
  /-- What signals do, by their numbers; the end of the program counts as signal 0. -/
  traps : List (Nat × String)
  /-- The number by which the program knows itself. -/
  self : Nat
  /-- The number of the process. -/
  process : Nat
  /-- The last process that was not waited for. -/
  background : Option Nat
  /-- The processes that were not waited for, and their status. -/
  jobs : List (Nat × Nat)
  /-- The rights that new files do not have. -/
  mask : Nat
  /-- The number of the word that `getopts` reads next, and how far it is in the one before. -/
  optionIndex : Nat
  optionOffset : Option Nat

structure Machine where
  world : World
  session : Session

inductive Stop where
  | exit
  /-- An error that ends a program, though not every command. -/
  | failure
  | killed (signal : Nat)
deriving DecidableEq

abbrev Run := ExceptT Stop (StateM Machine)

instance {α : Type} [Inhabited α] : Inhabited (Run α) := ⟨pure default⟩

def asks {α : Type} (f : Session → α) : Run α := return f (← get).session

def alters (f : Session → Session) : Run Unit :=
  modify fun m => { m with session := f m.session }

def sees {α : Type} (f : World → α) : Run α := return f (← get).world

def changes (f : World → World) : Run Unit := modify fun m => { m with world := f m.world }

/-! ## Files -/

def files : Run FileTree := do
  let m ← get
  return { m.world.files with home := m.session.directory }

def alterFiles (act : FileTree → Except IoError FileTree) : Run (Except IoError Unit) := do
  match act (← files) with
  | .error e => return .error e
  | .ok t =>
    changes fun w => { w with files := { t with home := w.files.home } }
    return .ok ()

def path (word : String) : Path := ⟨ofOctets word⟩

def device? (name : String) : Option Nat :=
  match name with
  | "/dev/stdin" => some 0
  | "/dev/stdout" => some 1
  | "/dev/stderr" => some 2
  | _ => if name.startsWith "/dev/fd/" then readDigits (name.toList.drop 8) else none

/-- Whether a name is that of the file that takes everything and gives nothing. -/
def isNull (name : String) : Bool := name = "/dev/null"

/-! ## Streams -/

def channel? (stream : Nat) : Run (Option (Nat × Channel)) := do
  let m ← get
  return do
    let number ← (m.session.streams.find? (·.1 = stream)).map (·.2)
    let channel ← m.world.channels[number]?
    some (number, channel)

def setChannel (number : Nat) (channel : Channel) : Run Unit :=
  changes fun w => { w with channels := w.channels.setIfInBounds number channel }

def newChannel (channel : Channel) : Run Nat := do
  let number := (← get).world.channels.size
  changes fun w => { w with channels := w.channels.push channel }
  return number

def setStream (stream : Nat) (number : Option Nat) : Run Unit :=
  alters fun s =>
    let others := s.streams.filter (·.1 ≠ stream)
    { s with streams := match number with
      | some n => (stream, n) :: others
      | none => others }

def overwritten (content new : ByteArray) (offset : Nat) : ByteArray :=
  let gap := offset - content.size
  content.extract 0 offset ++ (List.replicate gap (0 : UInt8)).toByteArray ++ new ++
    content.extract (offset + new.size) content.size

/-- Writes bytes to a channel. Tells whether that can be done. -/
def writeChannel (number : Nat) (channel : Channel) (bytes : ByteArray) : Run Bool := do
  match channel with
  | .nothing => return true
  | .directory => return false
  | .errors =>
    changes fun w => { w with errors := w.errors ++ bytes }
    return true
  | .buffer content =>
    setChannel number (.buffer (content ++ bytes))
    return true
  | .file place offset appends reads writes =>
    if !writes then return false
    else
      let t ← sees (·.files)
      match t.node? place with
      | some (.file content) =>
        let offset := if appends then content.size else offset
        let content := overwritten content bytes offset
        changes fun w =>
          { w with files := { t with nodes := t.nodes.insert place (.file content) } }
        setChannel number (.file place (offset + bytes.size) appends reads writes)
        return true
      | _ => return true

def writeTo (stream : Nat) (text : List Char) : Run Bool := do
  match ← channel? stream with
  | none => return text.isEmpty
  | some (number, channel) =>
    if text.isEmpty then return true else writeChannel number channel (bytesOfOctets text)

def sayLine (text : String) : Run Unit := do
  let _ ← writeTo 2 (text ++ "\n").toList

/-- What can still be read from a channel, and the channel when it has been read up to an amount.
-/
def readable (channel : Channel) : Run (Except IoError (ByteArray × (Nat → Channel))) := do
  match channel with
  | .nothing | .errors => return .ok (.empty, fun _ => channel)
  | .directory => return .error .isADirectory
  | .buffer content =>
    return .ok (content, fun n => .buffer (content.extract n content.size))
  | .file place offset appends reads writes =>
    let behind (n : Nat) : Channel := .file place (offset + n) appends reads writes
    match (← sees (·.files)).node? place with
    | some (.file content) => return .ok (content.extract offset content.size, behind)
    | _ => return .ok (.empty, behind)

/-- Reads from a stream as many bytes as a function of them says. Without a stream there is no
result. -/
def readSome (stream : Nat) (size : ByteArray → Nat) :
    Run (Option (Except IoError ByteArray)) := do
  match ← channel? stream with
  | none => return none
  | some (number, channel) =>
    match ← readable channel with
    | .error e => return some (.error e)
    | .ok (bytes, behind) =>
      let n := size bytes
      setChannel number (behind n)
      return some (.ok (bytes.extract 0 n))

def readFile (word : String) : Run (Except IoError ByteArray) := do
  let all (stream : Nat) : Run (Except IoError ByteArray) :=
    return (← readSome stream (·.size)).getD (.error .badStream)
  if word = "-" then all 0
  else if isNull word then return .ok .empty
  else match device? word with
    | some stream => all stream
    | none => return (← files).read (path word)

/-! ## Complaints -/

def warn (text : String) : Run Unit := do
  let s ← asks id
  let front := s.name ++ ": " ++ showNat s.line ++ ": "
  let who := match s.command with
    | some c => c ++ ": "
    | none => ""
  sayLine (front ++ who ++ text)

def stopWith {α : Type} (status : Nat) (stop : Stop) : Run α := do
  alters fun s => { s with status }
  throw stop

def fail {α : Type} (text : String) : Run α := do
  warn text
  stopWith 2 .failure

def failNumber {α : Type} (text : String) : Run α := fail ("Illegal number: " ++ text)

/-! ## Variables -/

def lookVariable (name : String) : Run (Option Variable) := do
  return (← asks fun s => (s.bindings.find? (·.1 = name)).map (·.2))

def value? (name : String) : Run (Option String) := return (← lookVariable name).bind (·.value)

def Session.put (s : Session) (name : String) (v : Option Variable) : Session :=
  let others := s.bindings.filter (·.1 ≠ name)
  { s with bindings := match v with
    | some v => (name, v) :: others
    | none => others }

def isSet (option : Char) : Run Bool := asks fun s => s.options.contains option

/-- Changes a variable. One that may only be read complains. -/
def alterVariable (name : String) (f : Variable → Variable) : Run Unit := do
  let old := (← lookVariable name).getD ⟨none, ← isSet 'a', false⟩
  let new := f old
  if old.readOnly && new.value ≠ old.value then fail (name ++ ": is read only")
  else alters (·.put name (some new))

def assign (name value : String) : Run Unit := do
  if name = "OPTIND" then
    match count? value with
    | none => failNumber value
    | some n => alters fun s => { s with optionIndex := max n 1, optionOffset := none }
  alterVariable name fun v => { v with value := some value }

def separators : Run String := return (← value? "IFS").getD " \t\n"

/-- The value of a parameter that is not a variable, if it has one. Several values are given as
they are. -/
def special? (c : Char) : Run (Option String) := do
  let s ← asks id
  return match c with
    | '$' => some (showNat s.self)
    | '?' => some (showNat s.status)
    | '#' => some (showNat s.parameters.length)
    | '-' => some (String.ofList (s.options.filter (· ≠ 'c')).reverse)
    | '!' => s.background.map showNat
    | _ => none

def parameter? (name : String) : Run (Option String) := do
  match readDigits name.toList with
  | some 0 => asks fun s => some s.name
  | some n => asks fun s => s.parameters[n - 1]?
  | none =>
    match name.toList with
    | [c] => if isSpecialParameter c then special? c else value? name
    | _ => value? name

end TemporalDB.Shell
