import TemporalDB.Shell.Condition
import TemporalDB.Shell.Field
import TemporalDB.Shell.Printing
import TemporalDB.Shell.Reader.Script
import TemporalDB.Shell.Signal

/-!
# Commands of the shell

The commands that work on the session itself, and those that the shell has for speed. Each takes
its words and gives a status.
-/

namespace TemporalDB.Shell

open Text

abbrev Builtin := List String → Run Nat

namespace Builtin

def out (s : List Char) : Run Bool := writeTo 1 s

/-- Writes a line to the output; without an output there is a complaint. -/
def outLine (s : String) : Run Unit := do
  let _ ← out (s ++ "\n").toList

def afterWriting (written : Bool) : Run Nat := do
  if written then return 0
  else
    let name := (← asks (·.command)).getD ""
    warn (name ++ ": I/O error")
    return 1

/-- The options at the front of words, each with its argument if it takes one, and what follows. -/
def options (letters : String) : Nat → List String → Run (List (Char × String) × List String)
  | 0, words => return ([], words)
  | fuel + 1, words => do
    match words with
    | [] => return ([], [])
    | "--" :: rest => return ([], rest)
    | w :: rest =>
      match w.toList with
      | '-' :: c :: more =>
        let known := letters.toList
        if !known.contains c || c = ':' then fail ("Illegal option -" ++ c.toString)
        else if (known.dropWhile (· ≠ c)).drop 1 |>.head? |> (· = some ':') then
          if !more.isEmpty then
            let (os, rest) ← options letters fuel rest
            return ((c, String.ofList more) :: os, rest)
          else match rest with
            | [] => fail ("No arg for -" ++ c.toString ++ " option")
            | a :: rest =>
              let (os, rest) ← options letters fuel rest
              return ((c, a) :: os, rest)
        else
          let onward := if more.isEmpty then rest else String.ofList ('-' :: more) :: rest
          let (os, rest) ← options letters fuel onward
          return ((c, "") :: os, rest)
      | _ => return ([], words)

def manyOptions : Nat := 1000

def count (word : String) : Run Nat := do
  match count? word with
  | some n => return n
  | none => failNumber word

def quoted (s : String) : String :=
  let pieces := splitAt '\'' s.toList
  let rec go : List (List Char) → List Char
    | [] => []
    | [last] => if last.isEmpty then [] else '\'' :: last ++ ['\'']
    | piece :: rest =>
      let here := if piece.isEmpty then [] else '\'' :: piece ++ ['\'']
      here ++ ['"', '\'', '"'] ++ go rest
  if s.isEmpty then "''" else String.ofList (go pieces)

def sorted (vs : List (String × Variable)) : List (String × Variable) :=
  vs.mergeSort fun a b => before a.1 b.1

/-! ## Output -/

def echo : Builtin := fun words => do afterWriting (← out (echoed words))

def printf : Builtin := fun words => do
  let (_, words) ← options "" manyOptions words
  match words with
  | [] => fail "usage: printf format [arg ...]"
  | format :: words =>
    let p := printed format words
    for (word, fault) in p.faults do
      warn (word ++ match fault with
        | .noNumber => ": expected numeric value"
        | .onlyPartly => ": not completely converted"
        | .outOfRange => ": Numerical result out of range")
    let finish : Run Nat := do
      let status ← afterWriting (← out p.written.reverse)
      return if p.faults.isEmpty then status else 1
    match p.failure with
    | none => finish
    | some fault =>
      warn (match fault with
        | .badDirective directive => directive ++ ": invalid directive"
        | .noLetter => "missing format character")
      let _ ← finish
      stopWith 2 .failure

def test : Builtin := fun words => do return if ← Condition.ofWords words then 0 else 1

def bracket : Builtin := fun words =>
  if words.getLast? = some "]" then test words.dropLast else fail "missing ]"

/-! ## Leaving -/

def exit : Builtin := fun words => do
  match words with
  | [] => throw .exit
  | w :: _ => stopWith (← count w) .exit

def «return» : Builtin := fun words => do
  let status ← match words with
    | [] => asks (·.status)
    | w :: _ => count w
  alters fun s => { s with leaving := .function }
  return status

def leave (again : Bool) : Builtin := fun words => do
  let n ← match words with
    | [] => pure 1
    | w :: _ => count w
  if n = 0 then failNumber (words.headD "")
  else
    let loops ← asks (·.loops)
    if 0 < loops then alters fun s => { s with leaving := .loops (min n loops) again }
    return 0

/-! ## Variables -/

def checkVariable (name : String) : Run Unit := do
  if !isName name.toList then fail (name ++ ": bad variable name")

def splitAssignment (word : String) : String × Option String :=
  let name := word.toList.takeWhile (· ≠ '=')
  let rest := word.toList.drop name.length
  (String.ofList name, if rest.isEmpty then none else some (String.ofList (rest.drop 1)))

def showVariables (front : String) (vs : List (String × Variable)) : Run Unit :=
  (sorted vs).forM fun (name, v) =>
    outLine (front ++ name ++ match v.value with
      | some value => "=" ++ quoted value
      | none => "")

def markVariables (name : String) (isMarked : Variable → Bool) (mark : Variable → Variable) :
    Builtin := fun words => do
  let (os, words) ← options "p" manyOptions words
  if os.isEmpty && !words.isEmpty then
    for w in words do
      let (who, value) := splitAssignment w
      checkVariable who
      match value with
      | some value => assign who value
      | none => pure ()
      alterVariable who mark
    return 0
  else
    showVariables (name ++ " ") ((← asks (·.bindings)).filter fun v => isMarked v.2)
    return 0

def «export» : Builtin := markVariables "export" (·.exported) fun v => { v with exported := true }

def readonly : Builtin := markVariables "readonly" (·.readOnly) fun v => { v with readOnly := true }

/-- Remembers what a variable was, so that it is again when the function ends. -/
def hide (name : String) : Run Unit := do
  let old ← lookVariable name
  alters fun s => match s.hidden with
    | [] => s
    | frame :: frames =>
      if frame.any (·.1 = name) then s
      else { s with hidden := ((name, old) :: frame) :: frames }

def «local» : Builtin := fun words => do
  let (_, words) ← options "" manyOptions words
  if (← asks (·.hidden)).isEmpty then fail "not in a function"
  else
    for w in words do
      let (name, value) := splitAssignment w
      checkVariable name
      hide name
      match value with
      | some value => assign name value
      | none => pure ()
    return 0

def unset : Builtin := fun words => do
  let (os, words) ← options "vf" manyOptions words
  for w in words do
    if (os.getLast?.map (·.1)) = some 'f' then
      alters fun s => { s with functions := s.functions.filter (·.1 ≠ w) }
    else
      checkVariable w
      alterVariable w fun v => { v with value := none }
      alters (·.put w none)
  return 0

def shift : Builtin := fun words => do
  let n ← match words with
    | [] => pure 1
    | w :: _ => count w
  let parameters ← asks (·.parameters)
  if parameters.length < n then fail "can't shift that many"
  else
    alters fun s => { s with parameters := parameters.drop n, optionIndex := 1,
                             optionOffset := none }
    return 0

/-! ## Options -/

def optionNames : List (String × Char) :=
  [("errexit", 'e'), ("noglob", 'f'), ("ignoreeof", 'I'), ("interactive", 'i'), ("monitor", 'm'),
    ("noexec", 'n'), ("stdin", 's'), ("xtrace", 'x'), ("verbose", 'v'), ("vi", 'V'),
    ("emacs", 'E'), ("noclobber", 'C'), ("allexport", 'a'), ("notify", 'b'), ("nounset", 'u'),
    ("privileged", 'p'), ("nolog", '0'), ("debug", '1')]

def setOption (on : Bool) (letter : Char) : Run Unit :=
  alters fun s =>
    let others := s.options.filter (· ≠ letter)
    { s with options := if on then
        (optionNames.map (·.2)).filter fun c => c = letter || others.contains c else others }

def showOptions (on : Bool) : Run Unit := do
  let set ← asks (·.options)
  if on then outLine "Current option settings"
  for (name, letter) in optionNames do
    let isOn := set.contains letter
    if on then
      let blanks := String.ofList (List.replicate (16 - name.length) ' ')
      outLine (name ++ blanks ++ if isOn then "on" else "off")
    else outLine ("set " ++ (if isOn then "-o " else "+o ") ++ name)

def setNamed (on : Bool) (name : String) : Run Unit := do
  match optionNames.find? (·.1 = name) with
  | some (_, letter) => setOption on letter
  | none => fail ("Illegal option -o " ++ name)

/-- Sets the option of a letter, or collects the letter if it is another one. A name may follow. -/
def readLetter (more : List Char) (on : Bool) (state : List Char × List String) (c : Char) :
    Run (List Char × List String) := do
  let (found, rest) := state
  if more.contains c then return (found ++ [c], rest)
  else if c = 'o' then
    match rest with
    | [] =>
      showOptions on
      return (found, [])
    | name :: after =>
      setNamed on name
      return (found, after)
  else if optionNames.any fun o => o.2 = c && !c.isDigit then
    setOption on c
    return (found, rest)
  else fail ("Illegal option " ++ String.ofList [if on then '-' else '+', c])

/-- Sets the options at the front of words. Gives the words that follow and whether they are
parameters even if there are none. -/
def readOptions (more : List Char) : Nat → List String → Run (List Char × List String × Bool)
  | 0, words => return ([], words, false)
  | fuel + 1, words => do
    match words with
    | [] => return ([], [], false)
    | w :: rest =>
      match w.toList with
      | ['-'] =>
        setOption false 'x'
        setOption false 'v'
        return ([], rest, !rest.isEmpty)
      | ['-', '-'] => return ([], rest, true)
      | sign :: letters =>
        if sign = '-' || sign = '+' then
          let on : Bool := sign = '-'
          let (found, rest) ← letters.foldlM (readLetter more on) ([], rest)
          let (others, rest, given) ← readOptions more fuel rest
          return (found ++ others, rest, given)
        else return ([], words, false)
      | [] => return ([], words, false)

def set : Builtin := fun words => do
  if words.isEmpty then
    showVariables "" ((← asks (·.bindings)).filter fun v => v.2.value.isSome)
  else
    let (_, rest, given) ← readOptions [] manyOptions words
    if given || !rest.isEmpty then
      alters fun s => { s with parameters := rest, optionIndex := 1, optionOffset := none }
  return 0

/-! ## Input -/

/-- How many bytes there are up to the end of a line, which a backslash may take away. -/
def lineSize (escapes : Bool) : List UInt8 → Nat
  | [] => 0
  | 0x0A :: _ => 1
  | 0x5C :: _ :: rest => if escapes then 2 + lineSize escapes rest else 1 + lineSize escapes (rest)
  | _ :: rest => 1 + lineSize escapes rest

/-- As `lineSize`, for a line in which backslashes have no meaning. -/
def plainSize (bytes : List UInt8) : Nat :=
  let n := (bytes.takeWhile (· ≠ 0x0A)).length
  min (n + 1) bytes.length

def lineStretches (escapes : Bool) : List Char → List Stretch
  | [] => []
  | '\\' :: c :: rest =>
    if escapes then
      if c = '\n' then lineStretches escapes rest
      else .fixed [.char c true] :: lineStretches escapes rest
    else ⟨.atSeparators, [.char '\\' false]⟩ :: lineStretches escapes (c :: rest)
  | ['\\'] =>
    if escapes then [] else [⟨.atSeparators, [.char '\\' false]⟩]
  | c :: rest =>
    match lineStretches escapes rest with
    | ⟨.atSeparators, cells⟩ :: others => ⟨.atSeparators, .char c false :: cells⟩ :: others
    | others => ⟨.atSeparators, [.char c false]⟩ :: others

def read : Builtin := fun words => do
  let (os, names) ← options "p:r" manyOptions words
  let escapes := !os.any (·.1 = 'r')
  if names.isEmpty then fail "arg count"
  let size (bytes : ByteArray) : Nat :=
    if escapes then lineSize true bytes.toList else plainSize bytes.toList
  let line := octetsOfBytes (((← readSome 0 size).bind (·.toOption)).getD .empty)
  let ended := line.getLast? = some '\n'
  let text := (if ended then line.dropLast else line).filter (· ≠ '\x00')
  let fields := splitFields (← separators) (some names.length) (lineStretches escapes text)
  for (name, i) in names.zipIdx do
    checkVariable name
    assign name (String.ofList (textOf (fields[i]?.getD [])))
  return if ended then 0 else 1

def optionIn (letters : List Char) (c : Char) : Option Bool :=
  match letters with
  | [] => none
  | d :: ':' :: rest => if c = d then some true else optionIn rest c
  | d :: rest => if c = d then some false else optionIn rest c

/-- Reads the next option of words. -/
def getopts : Builtin := fun words => do
  match words with
  | letters :: name :: words =>
    let s ← asks id
    let args := if words.isEmpty then s.parameters else words
    let silent := letters.toList.head? = some ':'
    let rest := match s.optionOffset, s.optionIndex with
      | some off, i + 2 => (args[i]?.getD "").toList.drop off
      | _, _ => []
    let index := s.optionIndex
    let finish (found : Char) (index : Nat) (offset : Option Nat) (status : Nat) : Run Nat := do
      alterVariable "OPTIND" fun v => { v with value := some (showNat index) }
      checkVariable name
      assign name found.toString
      alters fun s => { s with optionIndex := index, optionOffset := offset }
      return status
    let argument (value : Option String) : Run Unit := match value with
      | some value => assign "OPTARG" value
      | none => alters (·.put "OPTARG" none)
    let letterAt (c : Char) (rest : List Char) (index : Nat) : Run Nat := do
      let offset := (args[index - 2]?.getD "").length - rest.length
      match optionIn letters.toList c with
      | none =>
        if silent then argument (some c.toString)
        else
          sayLine ("Illegal option -" ++ c.toString)
          argument none
        finish '?' index (some offset) 0
      | some false =>
        argument (some "")
        finish c index (some offset) 0
      | some true =>
        if !rest.isEmpty then
          argument (some (String.ofList rest))
          finish c index none 0
        else match args[index - 1]? with
          | some value =>
            argument (some value)
            finish c (index + 1) none 0
          | none =>
            if silent then
              argument (some c.toString)
              finish ':' index none 0
            else
              sayLine ("No arg for -" ++ c.toString ++ " option")
              argument none
              finish '?' index none 0
    match rest with
    | c :: rest => letterAt c rest index
    | [] =>
      match (args[index - 1]?.getD "").toList with
      | ['-', '-'] => finish '?' (index + 1) none 1
      | '-' :: c :: rest => letterAt c rest (index + 1)
      | _ => finish '?' index none 1
  | _ => fail "Usage: getopts optstring var [arg...]"

/-! ## Directories -/

def placeText (place : List String) : String := octets ("/" ++ String.intercalate "/" place)

def cd : Builtin := fun words => do
  let (_, words) ← options "LP" manyOptions words
  let target ← match words with
    | [] => pure ((← value? "HOME").getD "")
    | "-" :: _ => pure ((← value? "OLDPWD").getD "")
    | w :: _ => pure w
  let t ← files
  let target' := if target.isEmpty then "." else target
  match (t.place (path target')).toOption with
  | none => fail ("can't cd to " ++ target)
  | some place =>
    if (t.node? place) matches some .directory then
      let old ← asks (·.directory)
      alters fun s => { s with directory := place }
      assign "OLDPWD" (placeText old)
      assign "PWD" (placeText place)
      if words.head? = some "-" then outLine (placeText place)
      return 0
    else fail ("can't cd to " ++ target)

def pwd : Builtin := fun _ => do
  outLine (placeText (← asks (·.directory)))
  return 0

/-! ## Processes -/

def killUsage : String :=
  "Usage: kill [-s sigspec | -signum | -sigspec] [pid | job]... or\nkill -l [exitstatus]"

def listSignals (words : List String) : Run Nat := do
  match words with
  | [] =>
    outLine "0"
    for i in List.range (signalCount - 1) do
      outLine (signalNames[i + 1]?.getD (showNat (i + 1)))
    return 0
  | w :: _ =>
    let n ← count w
    let n := if 128 < n then n - 128 else n
    if n < signalCount then
      outLine (if n = 0 then "0" else signalNames[n]?.getD (showNat n))
      return 0
    else fail ("invalid signal number or exit status: " ++ w)

def sendTo (signal : Nat) (word : String) : Run Bool := do
  let process ← match word.toList with
    | '%' :: _ => pure ((← asks (·.background)).getD 0)
    | '-' :: digits => count (String.ofList digits)
    | _ => count word
  if ← send signal process then return true
  else
    let jobs ← asks (·.jobs)
    if jobs.any (·.1 = process) then
      if signal ≠ 0 then
        let ended := (process, 128 + signal)
        alters fun s => { s with jobs := ended :: s.jobs.filter (·.1 ≠ process) }
      return true
    else
      warn "No such process\n"
      return false

def kill : Builtin := fun words => do
  let first := words.headD ""
  let given := if first.startsWith "-" then signal? 1 (String.ofList (first.toList.drop 1))
    else none
  let (signal, lists, targets) ← match given with
    | some n => pure (some n, false, words.drop 1)
    | none => do
      let (os, rest) ← options "ls:" manyOptions words
      match os.find? (·.1 = 's') with
      | some (_, name) =>
        match signal? 1 name with
        | some n => pure (some n, os.any (·.1 = 'l'), rest)
        | none => fail ("invalid signal number or name: " ++ name)
      | none => pure (none, os.any (·.1 = 'l'), rest)
  if lists then listSignals targets
  else if targets.isEmpty then fail killUsage
  else
    let sent ← targets.mapM (sendTo (signal.getD 15))
    return if sent.all id then 0 else 1

/-- Says what is to happen at signals, or shows it. -/
def trap : Builtin := fun words => do
  let (_, words) ← options "" manyOptions words
  match words with
  | [] =>
    let traps ← asks (·.traps)
    for (name, i) in signalNames.zipIdx do
      match traps.find? (·.1 = i) with
      | some (_, action) => outLine ("trap -- " ++ quoted action ++ " " ++ name)
      | none => pure ()
    return 0
  | w :: rest =>
    let (action, names) :=
      if rest.isEmpty || (readDigits w.toList).isSome then (none, words)
      else (if w = "-" then none else some w, rest)
    for name in names do
      match signal? 0 name with
      | none =>
        sayLine ("trap: " ++ name ++ ": bad trap")
        return 1
      | some n =>
        alters fun s =>
          let others := s.traps.filter (·.1 ≠ n)
          { s with traps := match action with
            | some action => (n, action) :: others
            | none => others }
    return 0

def wait : Builtin := fun words => do
  let jobs ← asks (·.jobs)
  match words.getLast? with
  | none => return 0
  | some w =>
    let process ← if w.startsWith "%" then asks fun s => s.background.getD 0 else count w
    return ((jobs.find? (·.1 = process)).map (·.2)).getD 127

/-- Rights in letters, of which three bits of a mask take some away. -/
def rightsOf (bits : Nat) : String :=
  String.ofList ([(4, 'r'), (2, 'w'), (1, 'x')].filterMap fun (bit, c) =>
    if bits / bit % 2 = 0 then some c else none)

/-- Says which rights new files do not have. -/
def umask : Builtin := fun words => do
  let (os, words) ← options "S" manyOptions words
  let mask ← asks (·.mask)
  match words with
  | [] =>
    if os.isEmpty then outLine (String.ofList (zeroPadded 4 (digitsValue (Nat.toDigits 8 mask))))
    else outLine ("u=" ++ rightsOf (mask / 64 % 8) ++ ",g=" ++ rightsOf (mask / 8 % 8) ++ ",o=" ++
      rightsOf (mask % 8))
  | w :: _ =>
    if w.toList.all Char.isDigit then
      match digitsIn? 8 w.toList with
      | some (n, []) => alters fun s => { s with mask := n % 512 }
      | _ => failNumber w
  return 0

def times : Builtin := fun _ => do
  outLine "0m0.000000s 0m0.000000s"
  outLine "0m0.000000s 0m0.000000s"
  return 0

def noJob : Builtin := fun _ => fail "No current job"

end Builtin

/-- The commands of the shell that run no other commands. -/
def builtin? : String → Option Builtin
  | "echo" => some Builtin.echo
  | "printf" => some Builtin.printf
  | "test" => some Builtin.test
  | "[" => some Builtin.bracket
  | "true" | ":" => some fun _ => return 0
  | "false" => some fun _ => return 1
  | "exit" => some Builtin.exit
  | "return" => some Builtin.return
  | "break" => some (Builtin.leave false)
  | "continue" => some (Builtin.leave true)
  | "export" => some Builtin.export
  | "readonly" => some Builtin.readonly
  | "local" => some Builtin.local
  | "unset" => some Builtin.unset
  | "shift" => some Builtin.shift
  | "set" => some Builtin.set
  | "read" => some Builtin.read
  | "getopts" => some Builtin.getopts
  | "cd" | "chdir" => some Builtin.cd
  | "pwd" => some Builtin.pwd
  | "kill" => some Builtin.kill
  | "trap" => some Builtin.trap
  | "wait" => some Builtin.wait
  | "umask" => some Builtin.umask
  | "times" => some Builtin.times
  | "ulimit" => some fun _ => do Builtin.outLine "unlimited"; return 0
  | "hash" | "jobs" | "alias" | "unalias" => some fun _ => return 0
  | "bg" | "fg" => some Builtin.noJob
  | _ => none

def runners : List String := ["eval", ".", "exec", "command", "type"]

def isBuiltin (name : String) : Bool := (builtin? name).isSome || runners.contains name

def isSpecial (name : String) : Bool := Reader.specialBuiltins.contains name

end TemporalDB.Shell
