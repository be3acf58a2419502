import TemporalDB.Shell.Builtin
import TemporalDB.Shell.Expansion

/-!
# Running commands

What one step of a command does is said in terms of an engine that runs the commands within it.
Commands run in the program itself or in a process of their own, which shares the world but has a
session of its own. A program that a word names is run by the engine as well.
-/

namespace TemporalDB.Shell

open Text

structure Mode where
  /-- Whether the program ends with the command. -/
  exits : Bool
  /-- Whether something depends on its status, so that a failure ends nothing. -/
  tested : Bool

namespace Mode

def usual : Mode := ⟨false, false⟩

def test : Mode := ⟨false, true⟩

def within (m : Mode) : Mode := { m with exits := false }

end Mode

inductive Ending where
  | exited (status : Nat)
  | killed (signal : Nat)

def Ending.status : Ending → Nat
  | exited n => n
  | killed n => 128 + n

/-- What runs commands within commands, and programs. -/
structure Engine where
  command : Command → Mode → Run Nat
  /-- A program by its name. -/
  program : String → List String → Run Ending

/-! ## Texts -/

def runReader (e : Engine) (mode : Mode) : Nat → Reader → Nat → Run Nat
  | 0, _, status => return status
  | fuel + 1, r, status => do
    match r.next with
    | .error complaint =>
      alters fun s => { s with line := complaint.line }
      fail complaint.text
    | .ok (none, _) => return status
    | .ok (some command, r) =>
      changes fun w => { w with documents := r.documents }
      let ran ← e.command command { mode with exits := mode.exits && r.isAtEnd }
      let status := if command matches .nothing then status else ran
      if (← asks (·.leaving)) ≠ .nothing then return status
      -- documents that commands have read since are not lost
      let documents ← sees (·.documents)
      runReader e mode fuel { r with documents } status

def runText (e : Engine) (mode : Mode) (text : String) : Run Nat := do
  let documents ← sees (·.documents)
  runReader e mode (text.length + 2) (.ofText text.toList 1 documents) 0

/-! ## Processes -/

/-- Does what a trap says. The status stays as it was unless a function is left. -/
def runTrap (e : Engine) (action : String) : Run Unit := do
  let status ← asks (·.status)
  let given ← runText e .usual action
  alters fun s => { s with status := if s.leaving = .function then given else status }

def settle (e : Engine) : Run Unit := do
  for signal in ← takeSignals do
    match (← asks (·.traps)).find? (·.1 = signal) with
    | some (_, action) =>
      if signal = 9 then throw (.killed signal)
      else if !action.isEmpty then runTrap e action
    | none => if !harmless.contains signal then throw (.killed signal)

def runExitTrap (e : Engine) : Run Unit := do
  match (← asks (·.traps)).find? (·.1 = 0) with
  | none => return ()
  | some (_, action) =>
    alters fun s => { s with traps := s.traps.filter (·.1 ≠ 0), leaving := .nothing }
    runTrap e action

def untilEnd (act : Run Unit) : Run (Option Nat) :=
  tryCatch (do act; return none) fun
    | .killed signal => return some signal
    | _ => return none

def toEnding (e : Engine) (act : Run Unit) : Run Ending := do
  match ← untilEnd act with
  | some signal => return .killed signal
  | none =>
    match ← untilEnd (runExitTrap e) with
    | some signal => return .killed signal
    | none => return .exited ((← asks (·.status)) % 256)

/-- Does something in a process of its own, whose session begins as a function of its number and
of this one. -/
def inProcess (e : Engine) (begin : Nat → Session → Session) (act : Run Unit) : Run Ending := do
  let before ← asks id
  let process ← sees (·.nextProcess)
  changes fun w => { w with nextProcess := process + 1, living := process :: w.living }
  alters fun s => { begin process s with process }
  let ending ← toEnding e act
  alters fun _ => before
  changes fun w => { w with living := w.living.filter (· ≠ process),
                            signals := w.signals.filter (·.1 ≠ process) }
  return ending

def Session.forked (s : Session) : Session :=
  { s with traps := s.traps.filter (·.2.isEmpty), leaving := .nothing, jobs := [] }

def report : Ending → Run Unit
  | .killed signal =>
    match signalMessage signal with
    | some text => sayLine text
    | none => return ()
  | _ => return ()

def inShell (e : Engine) (act : Run Unit) : Run Nat := do
  let ending ← inProcess e (fun _ => Session.forked) act
  report ending
  return ending.status

def hasTraps : Run Bool := asks fun s => s.traps.any fun t => !t.2.isEmpty

def captured (e : Engine) : Capture := fun body => do
  let number ← newChannel (.buffer .empty)
  let status ← inShell e do
    setStream 1 (some number)
    let _ ← e.command body ⟨true, false⟩
  alters fun s => { s with outputStatus := status }
  match (← sees (·.channels))[number]? with
  | some (.buffer content) => return octetsOfBytes content
  | _ => return []

/-! ## Redirections -/

/-- A redirection whose words have been replaced. -/
inductive Resolved where
  | file (stream : Nat) (opening : Opening) (name : String)
  | same (stream other : Nat)
  | close (stream : Nat)
  | document (stream : Nat) (content : List Part)

def resolve (e : Engine) : Redirection → Run Resolved
  | .file stream opening w => return .file stream opening (← textOfWord (captured e) .whole w)
  | .same stream other => return .same stream other
  | .close stream => return .close stream
  | .document stream number => do
    return .document stream ((← sees (·.documents))[number]?.getD [])
  | .sameAs stream w => do
    match (← textOfWord (captured e) .whole w).toList with
    | ['-'] => return .close stream
    | [c] =>
      if c.isDigit then return .same stream (c.toNat - '0'.toNat)
      else fail "Syntax error: Bad fd number"
    | _ => fail "Syntax error: Bad fd number"

def openFile (opening : Opening) (name : String) : Run (Except IoError Channel) := do
  let t ← files
  let p := path name
  let there (c : Channel) : Except IoError Channel := .ok c
  let made (content : ByteArray) (c : List String → Channel) : Run (Except IoError Channel) := do
    match ← alterFiles (·.write p content) with
    | .error e => return .error e
    | .ok () =>
      match (← files).place p with
      | .error e => return .error e
      | .ok place => return there (c place)
  match opening with
  | .read =>
    match t.place p with
    | .error e => return .error e
    | .ok place =>
      return match t.node? place with
        | none => .error .notFound
        | some .directory => there .directory
        | some (.file _) => there (.file place 0 false true false)
  | .create | .replace =>
    if opening = .create && (← isSet 'C') && t.isFile p then return .error .alreadyExists
    else made .empty fun place => .file place 0 false false true
  | .append =>
    made ((t.read p).toOption.getD .empty) fun place => .file place 0 true false true
  | .update =>
    made ((t.read p).toOption.getD .empty) fun place => .file place 0 false true true

def failOpening {α : Type} (opening : Opening) (name : String) (e : IoError) : Run α :=
  let (act, absent) := if opening = .read then ("open", "No such file")
    else ("create", "Directory nonexistent")
  let reason := if e = .notFound || e = .notADirectory then absent else e.reason
  fail ("cannot " ++ act ++ " " ++ name ++ ": " ++ reason)

def redirect (e : Engine) : Resolved → Run Unit
  | .close stream => setStream stream none
  | .document stream content => do
    let content ← textOfWord (captured e) .document content
    setStream stream (some (← newChannel (.buffer (bytesOfOctets content.toList))))
  | .same stream other => do
    match ← channel? other with
    | some (number, _) => setStream stream (some number)
    | none => fail (showNat other ++ ": Bad file descriptor")
  | .file stream opening name => do
    if isNull name then setStream stream (some (← newChannel .nothing))
    else match device? name with
      | some other =>
        match ← channel? other with
        | some (number, _) => setStream stream (some number)
        | none => failOpening opening name .notFound
      | none =>
        match ← openFile opening name with
        | .ok channel => setStream stream (some (← newChannel channel))
        | .error e => failOpening opening name e

/-- Does something and puts part of the session back as it was, even if the program stops. -/
def restoring {α : Type} (back : Session → Session → Session) (act : Run α) : Run α := do
  let before ← asks id
  let result ← tryCatch (do return Except.ok (← act)) fun stop => return .error stop
  alters (back before)
  match result with
  | .ok a => return a
  | .error stop => throw stop

def Session.withStreams (s before : Session) : Session := { s with streams := before.streams }

/-- Makes redirections. Tells whether they could be made. -/
def redirectAll (e : Engine) (rs : List Resolved) : Run Bool :=
  tryCatch (do rs.forM (redirect e); return true) fun
    | .failure => return false
    | stop => throw stop

/-! ## Compound commands -/

/-- The status after a command, unless it ends the program. -/
def finish (e : Engine) (mode : Mode) (checks : Bool) : Run Nat := do
  settle e
  let status ← asks (·.status)
  if checks && !mode.tested && status ≠ 0 && (← isSet 'e') then throw .exit
  if mode.exits then throw .exit
  return status

def setStatus (status : Nat) : Run Unit := alters fun s => { s with status }

def isLeaving : Run Bool := return (← asks (·.leaving)) ≠ .nothing

/-- What a loop does when its body has been run, or its test. -/
inductive After where
  | goesOn
  | again
  | ends
deriving DecidableEq

def afterBody : Run After := do
  match ← asks (·.leaving) with
  | .nothing => return .goesOn
  | .function => return .ends
  | .loops n again =>
    if n ≤ 1 then
      alters fun s => { s with leaving := .nothing }
      return if again then .again else .ends
    else
      alters fun s => { s with leaving := .loops (n - 1) again }
      return .ends

def asLoop (act : Run Nat) : Run Nat := do
  alters fun s => { s with loops := s.loops + 1 }
  restoring (fun before s => { s with loops := before.loops - 1 }) act

def runLoop (e : Engine) (mode : Mode) (whileTrue : Bool) (test body : Command) :
    Nat → Nat → Run Nat
  | 0, status => return status
  | fuel + 1, status => do
    let tested ← e.command test .test
    match ← afterBody with
    | .ends => return if (← asks (·.leaving)) = .function then tested else status
    | .again => runLoop e mode whileTrue test body fuel status
    | .goesOn =>
      if (tested = 0) ≠ whileTrue then return status
      else
        let status ← e.command body mode.within
        if (← afterBody) = .ends then return status
        else runLoop e mode whileTrue test body fuel status

def runIteration (e : Engine) (mode : Mode) (name : String) (body : Command) :
    List String → Nat → Run Nat
  | [], status => return status
  | w :: ws, _ => do
    assign name w
    let status ← e.command body mode.within
    if (← afterBody) = .ends then return status else runIteration e mode name body ws status

/-- The command of the first case one of whose patterns matches. -/
def chosen (e : Engine) (subject : List Char) :
    List (List (List Part) × Command) → Run (Option Command)
  | [] => return none
  | (patterns, body) :: cases => do
    if ← patterns.anyM fun p => return (← patternOf (captured e) p).matchesAll subject then
      return some body
    else chosen e subject cases

/-- Runs the commands of a pipeline, each in a process of its own that reads what the one before
has written. -/
def runPipeline (e : Engine) (mode : Mode) : List Command → Option Nat → Run Nat
  | [], _ => return 0
  | c :: cs, input => do
    let output ← if cs.isEmpty then pure none
      else some <$> newChannel (.buffer .empty)
    let status ← inShell e do
      if input.isSome then setStream 0 input
      if output.isSome then setStream 1 output
      let _ ← e.command c { mode with exits := true }
    if cs.isEmpty then return status else runPipeline e mode cs output

def runSubshell (e : Engine) (body : Command) (rs : List Redirection) (mode : Mode) :
    Run Nat := do
  let rs ← rs.mapM (resolve e)
  let act : Run Unit := do
    rs.forM (redirect e)
    let _ ← e.command body { mode with exits := true }
  if mode.exits && !(← hasTraps) then
    act
    throw .exit
  else inShell e act

/-- Starts a command that is not waited for. It has run when the next command begins. -/
def runBackground (e : Engine) (body : Command) (rs : List Redirection) : Run Nat := do
  let rs ← rs.mapM (resolve e)
  let process ← sees (·.nextProcess)
  let ending ← inProcess e (fun _ => Session.forked) do
    setStream 0 (some (← newChannel .nothing))
    rs.forM (redirect e)
    let _ ← e.command body ⟨true, false⟩
  alters fun s => { s with background := some process,
                           jobs := (process, ending.status) :: s.jobs }
  return 0

/-! ## Simple commands -/

def takesAssignments (name : String) : Bool :=
  ["export", "readonly", "local", "alias"].contains name

/-- What words of a command stand for. Behind certain names, assignments are not split. -/
def commandWords (e : Engine) : List (List Part) → List String → Run (List String)
  | [], done => return done
  | w :: ws, done => do
    let name := (done.dropWhile (· = "command")).headD ""
    let isValue := takesAssignments name && (assignment? w).isSome
    let words ←
      match if isValue then assignment? w else none with
      | some (name, value) =>
        let text ← textOfWord (captured e) .value value
        pure [String.ofList name ++ "=" ++ text]
      | none => fieldsOf (captured e) w
    commandWords e ws (done ++ words)

def trace (errors : Option Nat) (assignments : List (String × String)) (words : List String) :
    Run Unit := do
  let front := (← value? "PS4").getD ""
  let shown := assignments.map (fun (name, value) => name ++ "=" ++ value) ++ words
  match errors with
  | none => return ()
  | some number =>
    match (← sees (·.channels))[number]? with
    | none => return ()
    | some channel =>
      let line := front ++ String.intercalate " " shown ++ "\n"
      let _ ← writeChannel number channel (bytesOfOctets line.toList)

def maxCalls : Nat := 1000

def callFunction (e : Engine) (mode : Mode) (body : Command) (args : List String) : Run Nat := do
  if maxCalls ≤ (← asks (·.calls)) then
    fail ("Maximum function recursion depth (" ++ showNat maxCalls ++ ") reached")
  let hiddenBack (before s : Session) : Session :=
    let frame := s.hidden.headD []
    let s := frame.foldl (fun s (name, old) => s.put name old) s
    { s with hidden := before.hidden, parameters := before.parameters, loops := before.loops,
             calls := before.calls, optionIndex := before.optionIndex,
             optionOffset := before.optionOffset }
  let status ← restoring hiddenBack do
    alters fun s => { s with hidden := [] :: s.hidden, parameters := args, loops := 0,
                             calls := s.calls + 1, optionIndex := 1, optionOffset := none }
    e.command body mode.within
  if (← asks (·.leaving)) = .function then alters fun s => { s with leaving := .nothing }
  return status

/-- Runs a command of the shell under its name. An error ends the program only if the command
belongs to the language. -/
def callBuiltin (name : String) (special : Bool) (act : Run Nat) : Run Nat := do
  let run := restoring (fun before s => { s with command := before.command }) do
    alters fun s => { s with command := some name }
    act
  if special then run
  else tryCatch run fun
    | .failure => asks (·.status)
    | stop => throw stop

def callProgram (e : Engine) (mode : Mode) (name : String) (args : List String) : Run Nat := do
  let ends := mode.exits && !(← hasTraps)
  match ← e.program name args with
  | .killed signal =>
    if ends then throw (.killed signal)
    else
      report (.killed signal)
      return 128 + signal
  | .exited status => if ends then stopWith status .exit else return status

def searchPath : Run (List String) := do
  let path := (← value? "PATH").getD ""
  return (splitAt ':' path.toList).map String.ofList

def runFile (e : Engine) (words : List String) : Run Nat := do
  match words with
  | [] => return 0
  | name :: _ =>
    if !name.toList.contains '/' then fail (name ++ ": not found")
    else match ← openFile .read name with
      | .error error => failOpening .read name error
      | .ok channel =>
        let text := match ← readable channel with
          | .ok (bytes, _) => octetsOfBytes bytes
          | .error _ => []
        let status ← restoring (fun before s => { s with command := before.command }) do
          alters fun s => { s with command := some name }
          runText e .usual (String.ofList text)
        if (← asks (·.leaving)) = .function then
          alters fun s => { s with leaving := .nothing }
        return status

def replaceBy (e : Engine) (words : List String) : Run Nat := do
  let (_, words) ← Builtin.options "" Builtin.manyOptions words
  match words with
  | [] => return 0
  | name :: args =>
    match ← e.program name args with
    | .exited status => stopWith status .exit
    | .killed signal => throw (.killed signal)

inductive Meaning where
  | reserved
  | special
  | function
  | builtin
  | program (path : String)
  | unknown

def meaning (lookup : String → Run (Option String)) (name : String) : Run Meaning := do
  if Token.reservedWords.contains name then return .reserved
  else if isSpecial name then return .special
  else if (← asks (·.functions)).any (·.1 = name) then return .function
  else if isBuiltin name then return .builtin
  else return match ← lookup name with
    | some path => .program path
    | none => .unknown

/-- Says in one word how a name would be run. Gives the status. -/
def nameMeaning (lookup : String → Run (Option String)) (name : String) : Run Nat := do
  match ← meaning lookup name with
  | .unknown => return 127
  | .program path =>
    Builtin.outLine path
    return 0
  | _ =>
    Builtin.outLine name
    return 0

/-- Says how a name would be run. Gives the status. -/
def describeMeaning (lookup : String → Run (Option String)) (name : String) : Run Nat := do
  let say (what : String) : Run Nat := do
    Builtin.outLine (name ++ what)
    return 0
  match ← meaning lookup name with
  | .reserved => say " is a shell keyword"
  | .special => say " is a special shell builtin"
  | .function => say " is a shell function"
  | .builtin => say " is a shell builtin"
  | .program path => say (" is " ++ path)
  | .unknown =>
    let _ ← say ": not found"
    return 127

/-- A simple command whose words have been replaced. -/
structure Call where
  name : String
  args : List String
  /-- Whether the name is that of a function only if nothing else has it. -/
  skipsFunctions : Bool
  /-- Whether the command belongs to the language, and an error in it ends the program. -/
  special : Bool

/-- The call that words are. What follows `command` is not a function. -/
def Call.ofWords (words : List String) : Option Call :=
  match words with
  | [] => none
  | "command" :: rest =>
    let rest := rest.dropWhile (· = "command")
    let rest := if rest.head? = some "-p" then rest.drop 1 else rest
    let rest := if rest.head? = some "--" then rest.drop 1 else rest
    match rest with
    | [] => some ⟨"command", [], true, false⟩
    | name :: args =>
      if name.startsWith "-" then some ⟨"command", name :: args, true, false⟩
      else some ⟨name, args, true, false⟩
  | name :: args => some ⟨name, args, false, isSpecial name⟩

def Call.run (e : Engine) (lookup : String → Run (Option String)) (mode : Mode) (c : Call) :
    Run Nat := do
  let functions ← asks (·.functions)
  match if c.skipsFunctions || isSpecial c.name then none
      else functions.find? (·.1 = c.name) with
  | some (_, body) => callFunction e mode body c.args
  | none =>
    let act : Option (Run Nat) := match c.name with
      | "eval" => some do
        if c.args.isEmpty then return 0
        else runText e { mode with exits := false } (String.intercalate " " c.args)
      | "." => some (runFile e c.args)
      | "exec" => some (replaceBy e c.args)
      | "type" => some do
        let statuses ← c.args.mapM (describeMeaning lookup)
        return statuses.foldl (· ||| ·) 0
      | "command" => some do
        let (os, names) ← Builtin.options "pvV" Builtin.manyOptions c.args
        let say := if os.any (·.1 = 'V') then describeMeaning lookup else nameMeaning lookup
        match names with
        | [] => return 0
        | name :: _ => say name
      | name => (builtin? name).map fun builtin => builtin c.args
    match act with
    | some act => callBuiltin c.name c.special act
    | none => callProgram e mode c.name c.args

/-- Makes the assignments of a command. Gives the names and values. -/
def assignAll (e : Engine) (temporary exported : Bool) :
    List (List Part) → List (String × String) → Run (List (String × String))
  | [], done => return done.reverse
  | w :: ws, done => do
    match assignment? w with
    | none => assignAll e temporary exported ws done
    | some (name, value) =>
      let name := String.ofList name
      let value ← textOfWord (captured e) .value value
      if temporary then Builtin.hide name
      assign name value
      if temporary || exported then alterVariable name fun v => { v with exported := true }
      assignAll e temporary exported ws ((name, value) :: done)

/-- The session with variables as they were that are hidden by the frames above those there were.
-/
def Session.unhidden (s before : Session) : Session :=
  let more := s.hidden.length - before.hidden.length
  let s := (s.hidden.take more).flatten.foldl (fun s (name, old) => s.put name old) s
  { s with hidden := s.hidden.drop more }

def runSimple (e : Engine) (lookup : String → Run (Option String)) (mode : Mode)
    (assignments words : List (List Part)) (rs : List Redirection) : Run Nat := do
  alters fun s => { s with outputStatus := 0 }
  let words ← commandWords e words []
  let call := Call.ofWords words
  let special := (call.map (·.special)).getD false
  let temporary := call.isSome && !special
  let errors := (← channel? 2).map (·.1)
  let rs ← rs.mapM (resolve e)
  let keeps := (call.map (·.name)) = some "exec"
  let streamsBack (before s : Session) : Session := if keeps then s else s.withStreams before
  restoring streamsBack do
    if !(← redirectAll e rs) then
      setStatus 2
      if special then throw .failure else return 2
    else
      restoring (fun before s => s.unhidden before) do
        if temporary && !assignments.isEmpty then
          alters fun s => { s with hidden := [] :: s.hidden }
        let exported := keeps && 1 < words.length
        let assigned ← assignAll e (temporary && !assignments.isEmpty) exported assignments []
        if ← isSet 'x' then trace errors assigned words
        match call with
        | some call => call.run e lookup mode
        | none => asks (·.outputStatus)

/-! ## Commands -/

def runCommand (e : Engine) (lookup : String → Run (Option String)) (c : Command) (mode : Mode) :
    Run Nat := do
  settle e
  let atLine (line : Nat) : Run Unit := alters fun s => { s with line }
  let done (checks : Bool) (status : Nat) : Run Nat := do
    setStatus status
    finish e mode checks
  if ← isSet 'n' then finish e mode false
  else match c with
    | .nothing => finish e mode false
    | .simple line assignments words rs =>
      atLine line
      done true (← runSimple e lookup mode assignments words rs)
    | .subshell line body rs =>
      atLine line
      done true (← runSubshell e body rs mode)
    | .background _ body rs => done true (← runBackground e body rs)
    | .pipeline commands => done true (← runPipeline e mode commands none)
    | .redirected line body rs =>
      atLine line
      let rs ← rs.mapM (resolve e)
      let made ← restoring (fun before s => s.withStreams before) do
        let made ← redirectAll e rs
        setStatus (← if made then e.command body mode.within else pure 2)
        return made
      -- a failure of the body has been noticed by the body
      finish e mode (!made)
    | .negation body =>
      let status ← e.command body .test
      if ← isLeaving then done false status else done false (if status = 0 then 1 else 0)
    | .sequence first second =>
      let _ ← e.command first mode.within
      if ← isLeaving then finish e mode false else done false (← e.command second mode)
    | .both first second =>
      let status ← e.command first .test
      if status ≠ 0 || (← isLeaving) then finish e mode false
      else done false (← e.command second mode)
    | .either first second =>
      let status ← e.command first .test
      if status = 0 || (← isLeaving) then finish e mode false
      else done false (← e.command second mode)
    | .conditional test yes no =>
      let status ← e.command test .test
      if ← isLeaving then finish e mode false
      else match if status = 0 then yes else no with
        | .nothing => done false 0
        | body => done false (← e.command body mode)
    | .loop whileTrue test body =>
      done false (← asLoop (runLoop e mode whileTrue test body manySteps 0))
    | .iteration line name words body =>
      atLine line
      let words ← fieldsOfAll (captured e) words
      done false (← asLoop (runIteration e mode (String.ofList name) body words 0))
    | .choice line subject cases =>
      atLine line
      let subject ← textOfWord (captured e) .whole subject
      match ← chosen e subject.toList cases with
      | none | some .nothing => done false 0
      | some body => done false (← e.command body mode)
    | .definition name body =>
      let name := String.ofList name
      alters fun s =>
        { s with functions := (name, body) :: s.functions.filter (·.1 ≠ name) }
      done false 0

end TemporalDB.Shell
