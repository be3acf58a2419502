import TemporalDB.Compiler
import TemporalDB.Shell.Tool.Content
import TemporalDB.Shell.Tool.Files
import TemporalDB.Shell.Tool.Running
import TemporalDB.Shell.Tool.Search
import TemporalDB.Shell.Tool.Words
import TemporalDB.Text.Utf8

/-!
# Running programs

`Shell.run` runs a program on the files. A program is found by its path, or by its name in one of
the directories of programs: it is the shell, one of the programs of the system, or a file that may
be run.
-/

namespace TemporalDB.Shell

open Text

/-! ## Programs -/

inductive Executable where
  | shell
  | tool (run : Tool)
  /-- A program that runs others. -/
  | starter (run : Start → Tool)
  /-- A file that says what it does. -/
  | script (place : List String)

def systemPrograms : List (String × Executable) :=
  [("sh", .shell), ("dash", .shell), ("bash", .shell)] ++
  [("env", .starter Tool.env), ("xargs", .starter Tool.xargs),
    ("timeout", .starter Tool.timeout)] ++
  ([("true", fun _ => return 0), ("false", fun _ => return 1), ("sync", fun _ => return 0),
    ("test", Builtin.test), ("[", Tool.bracket), ("pwd", Builtin.pwd), ("kill", Builtin.kill),
    ("echo", Tool.echo), ("printf", Tool.printf), ("yes", Tool.yes), ("sleep", Tool.sleep),
    ("basename", Tool.basename), ("dirname", Tool.dirname), ("seq", Tool.seq),
    ("expr", Tool.expr), ("cat", Tool.cat), ("cp", Tool.cp), ("mv", Tool.mv), ("ln", Tool.ln),
    ("rm", Tool.rm), ("rmdir", Tool.rmdir), ("mkdir", Tool.mkdir), ("touch", Tool.touch),
    ("chmod", Tool.chmod), ("ls", Tool.ls), ("head", Tool.head), ("tail", Tool.tail),
    ("wc", Tool.wc), ("sort", Tool.sort), ("uniq", Tool.uniq), ("tac", Tool.tac),
    ("rev", Tool.rev), ("nl", Tool.nl), ("cut", Tool.cut), ("tr", Tool.tr), ("tee", Tool.tee),
    ("grep", Tool.grep 'G'), ("egrep", Tool.grep 'E'), ("fgrep", Tool.grep 'F'),
    ("sed", Tool.sed), ("cmp", Tool.cmp), ("truncate", Tool.truncate),
    ("sha256sum", Tool.sha256sum), ("uname", Tool.uname)] : List (String × Tool)).map fun (name, tool) => (name, .tool tool)

def systemDirectories : List String := ["/bin", "/usr/bin"]

def systemProgram? (word : String) : Option Executable := do
  let parts := (path word).parts
  let directory := (Path.ofParts parts.dropLast).text
  if systemDirectories.contains directory && !word.endsWith "/" then
    (systemPrograms.find? (·.1 = parts.getLast?.getD "")).map (·.2)
  else none

/-- The program at a path. A file can be run only if that is allowed. -/
def executableAt (word : String) : Run (Except IoError Executable) := do
  match systemProgram? word with
  | some program => return .ok program
  | none =>
    let t ← files
    match t.place (path word) with
    | .error e => return .error e
    | .ok place =>
      match t.node? place with
      | none => return .error .notFound
      | some .directory => return .error .permissionDenied
      | some (.file _) =>
        return if (← sees (·.programs)).contains place then .ok (.script place)
          else .error .permissionDenied

/-- The path and the program that a name in one of some directories has. What is there but cannot
be run is told from nothing. -/
def findIn (name : String) : IoError → List String → Run (Except IoError (String × Executable))
  | failure, [] => return .error failure
  | failure, directory :: directories => do
    let word := if directory.isEmpty then name else directory ++ "/" ++ name
    match ← executableAt word with
    | .ok program => return .ok (word, program)
    | .error .notFound | .error .notADirectory => findIn name failure directories
    | .error e => findIn name e directories

/-- The path and the program of a name. Without a path of programs those of the system count. -/
def findExecutable (name : String) : Run (Except IoError (String × Executable)) := do
  if name.toList.contains '/' then
    return (← executableAt name).map fun program => (name, program)
  else
    let searched ← searchPath
    findIn name .notFound (if (← lookVariable "PATH").isNone then systemDirectories else searched)

def pathOf (name : String) : Run (Option String) := do
  return ((← findExecutable name).toOption).map (·.1)

/-! ## Sessions -/

/-- The directories of programs, unless a variable names others. -/
def standardPath : String := "/usr/local/sbin:/usr/local/bin:/usr/sbin:/usr/bin:/sbin:/bin"

/-- The session of a new program. It has the variables that are meant for programs, and the signals
are ignored that were. -/
def Session.started (name : String) (process : Nat) (s : Session) : Session :=
  { name
    command := none
    line := 0
    parameters := []
    bindings := s.bindings.filterMap fun (n, v) =>
      if v.exported && v.value.isSome then some (n, { v with readOnly := false }) else none
    functions := []
    options := []
    streams := s.streams
    directory := s.directory
    status := 0
    outputStatus := 0
    leaving := .nothing
    loops := 0
    calls := 0
    hidden := []
    traps := s.traps.filter (·.2.isEmpty)
    self := process
    process
    background := none
    jobs := []
    mask := s.mask
    optionIndex := 1
    optionOffset := none }

def Session.supply (s : Session) (name value : String) : Session :=
  if s.bindings.any fun v => v.1 = name then s
  else s.put name (some ⟨some value, false, false⟩)

def Session.furnished (s : Session) : Session :=
  let s := s.put "IFS" (some ⟨some " \t\n", false, false⟩)
  let s := s.put "OPTIND" (some ⟨some "1", false, false⟩)
  let s := s.put "PPID" (some ⟨some "1", false, false⟩)
  (((s.supply "PATH" standardPath).supply "PS1" "# ").supply "PS2" "> ").supply "PS4" "+ "

/-! ## The shell -/

def readInput : Run String := do
  let bytes := ((← readSome 0 (·.size)).bind (·.toOption)).getD .empty
  return String.ofList (octetsOfBytes bytes)

/-- Runs the shell with words: options, and then a text, or the name of a script, and its
parameters. Without a script it runs what it reads. -/
def runShell (e : Engine) (words : List String) : Run Unit := do
  alters Session.furnished
  let (letters, rest, _) ← Builtin.readOptions ['c', 'l'] Builtin.manyOptions words
  let takesText : Bool := letters.contains 'c'
  if takesText && rest.isEmpty then fail "-c requires an argument"
  if rest.isEmpty then Builtin.setOption true 's'
  let reads ← isSet 's'
  let called (words : List String) : Run Unit :=
    alters fun s => match words with
      | [] => s
      | name :: parameters => { s with name, parameters }
  if takesText then
    called (rest.drop 1)
    let _ ← runText e { Mode.usual with exits := !reads } (rest.headD "")
  else if !reads then
    let name := rest.headD ""
    match ← openFile .read name with
    | .error error => failOpening .read name error
    | .ok channel =>
      called rest
      let text := match ← readable channel with
        | .ok (bytes, _) => octetsOfBytes bytes
        | .error _ => []
      let _ ← runText e .usual (String.ofList text)
  else alters fun s => { s with parameters := rest }
  if reads then
    let _ ← runText e .usual (← readInput)

/-! ## Starting programs -/

/-- The words of the line that tells which program runs a script, if there is one. -/
def interpreter? (text : List Char) : Option (List String) :=
  match text with
  | '#' :: '!' :: rest =>
    let isBlank (c : Char) : Bool := c = ' ' || c = '\t'
    let line := (rest.takeWhile (· ≠ '\n')).dropWhile isBlank
    let line := (line.reverse.dropWhile isBlank).reverse
    let name := line.takeWhile (!isBlank ·)
    let arg := (line.drop name.length).dropWhile isBlank
    if name.isEmpty then none
    else some (String.ofList name :: if arg.isEmpty then [] else [String.ofList arg])
  | _ => none

/-- Starts a program of which the path and the name under which it runs are known. -/
def startAt (e : Engine) (start : Start) : Nat → String → String → Executable → List String →
    Run (Except IoError Ending)
  | 0, _, _, _, _ => return .error .notFound
  | fuel + 1, word, name, program, args => do
    let runAs (act : Run Unit) : Run (Except IoError Ending) :=
      .ok <$> inProcess e (Session.started name) act
    let finishing (tool : Tool) : Run Unit := do
      let status ← tool args
      stopWith status .exit
    match program with
    | .shell => runAs (runShell e args)
    | .tool tool => runAs (finishing tool)
    | .starter tool => runAs (finishing (tool start))
    | .script place =>
      let text := match (← sees (·.files)).node? place with
        | some (.file content) => octetsOfBytes content
        | _ => []
      match interpreter? text with
      | none => startAt e start fuel word "sh" .shell (word :: args)
      | some words =>
        let interpreter := words.headD ""
        match ← executableAt interpreter with
        | .error error => return .error error
        | .ok program =>
          startAt e start fuel interpreter interpreter program (words.drop 1 ++ word :: args)

def manyInterpreters : Nat := 8

def start (e : Engine) : Nat → Start
  | 0, _, _ => return .error .notFound
  | fuel + 1, name, args => do
    match ← findExecutable name with
    | .error error => return .error error
    | .ok (word, program) =>
      startAt e (start e fuel) manyInterpreters word name program args

def manyStarts : Nat := 100

def runProgram (e : Engine) (name : String) (args : List String) : Run Ending := do
  match ← start e manyStarts name args with
  | .ok ending => return ending
  | .error error =>
    let absent := error = .notFound || error = .notADirectory
    warn (name ++ ": " ++ if absent then "not found" else error.reason)
    let isUnknown := absent || error = .nameTooLong || name.isEmpty
    return .exited (if isUnknown then 127 else 126)

/-- The engine whose commands are nested up to a depth. What is nested deeper ends the program. -/
def engine : Nat → Engine
  | 0 => ⟨fun _ _ => throw (.killed 11), fun _ _ => return .killed 11⟩
  | depth + 1 =>
    ⟨fun c mode => runCommand (engine depth) pathOf c mode, fun name args =>
      runProgram (engine depth) name args⟩

def maxDepth : Nat := 20000

/-! ## The first program -/

def firstSession (home : List String) : Session :=
  let exported (value : String) : Variable := ⟨some value, true, false⟩
  let bare := Session.started "" 1
    { name := "", command := none, line := 0, parameters := [], bindings := [], functions := []
      options := [], streams := [(0, 0), (1, 1), (2, 2)], directory := home, status := 0
      outputStatus := 0, leaving := .nothing, loops := 0, calls := 0, hidden := [], traps := []
      self := 1, process := 1, background := none, jobs := [], mask := 18
      optionIndex := 1, optionOffset := none }
  { bare with bindings :=
      [("PATH", exported standardPath), ("HOME", exported "/root"),
        ("PWD", exported (Builtin.placeText home))] }

def systemPlaces : List (List String) :=
  [["bin"], ["dev"], ["etc"], ["tmp"], ["usr"], ["usr", "bin"]]

def withSystem (t : FileTree) : FileTree :=
  { t with nodes := systemPlaces.foldl (fun nodes place =>
      if (nodes.find? place).isSome then nodes else nodes.insert place .directory) t.nodes }

def withoutSystem (before t : FileTree) : FileTree :=
  { home := before.home
    nodes := systemPlaces.foldl (fun nodes place =>
      if (before.nodes.find? place).isSome then nodes else nodes.erase place) t.nodes }

/-- The machine on which the first program is started. It has no input, and what it writes is lost
unless it goes to the error stream. -/
def firstMachine (files : FileTree) : Machine :=
  { world :=
      { files := withSystem files, channels := #[.nothing, .nothing, .errors], errors := .empty, documents := #[]
        nextProcess := 100, living := [], signals := [], programs := [] }
    session := firstSession files.home }

def run : Runner := fun program args files =>
  let hasZero (s : String) : Bool := s.toList.contains '\x00'
  let name := octets program
  if hasZero program || args.any hasZero then .error .zeroInWord
  else if !program.toList.contains '/' && FileTree.maxName < program.utf8ByteSize then
    .error .nameTooLong
  else if program.isEmpty then .error .notFound
  else
    let act := start (engine maxDepth) manyStarts name (args.map octets)
    match act.run (firstMachine files) with
    | (.ok (.ok ending), m) =>
      let status := match ending with
        | .exited n => some n
        | .killed _ => none
      .ok ⟨status, ofBytes m.world.errors, withoutSystem files m.world.files⟩
    | (.ok (.error e), _) => .error e
    | (.error _, m) => .ok ⟨none, ofBytes m.world.errors, withoutSystem files m.world.files⟩

end TemporalDB.Shell

def TemporalDB.Compiler.ofToolchain : Toolchain → Compiler := ofToolchainBy Shell.run
