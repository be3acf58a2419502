import TemporalDB.Shell.Evaluation
import TemporalDB.Shell.Tool.Basic

/-!
# Programs that run programs

They run another program with changed variables, or with words that they read.
-/

namespace TemporalDB.Shell

abbrev Start := String → List String → Run (Except IoError Ending)

namespace Tool

def become (start : Start) (shownName name : String) (args : List String) : Run Nat := do
  match ← start name args with
  | .ok (.exited status) => return status
  | .ok (.killed signal) => throw (.killed signal)
  | .error e =>
    complain (shownName ++ ": " ++ e.reason)
    return if e = .notFound || e = .notADirectory then 127 else 126

/-- Makes the assignments at the front of words. Gives the words that follow. -/
def assignFront : List String → Run (List String)
  | [] => return []
  | w :: ws => do
    match Builtin.splitAssignment w with
    | (name, some value) =>
      alters (·.put name (some ⟨some value, true, false⟩))
      assignFront ws
    | _ => return w :: ws

/-- The options that `env` has in front. Gives the words that follow. -/
def envOptions : Nat → List String → Run (Except String (List String))
  | 0, words => return .ok words
  | fuel + 1, words => do
    match words with
    | "-i" :: rest | "-" :: rest | "--ignore-environment" :: rest =>
      alters fun s => { s with bindings := [] }
      envOptions fuel rest
    | "-u" :: name :: rest =>
      alters (·.put name none)
      envOptions fuel rest
    | "-u" :: [] => return .error "option requires an argument -- 'u'"
    | "--" :: rest => return .ok rest
    | w :: rest =>
      match w.toList with
      | '-' :: '-' :: _ => return .error ("unrecognized option '" ++ w ++ "'")
      | '-' :: c :: _ => return .error ("invalid option -- '" ++ c.toString ++ "'")
      | _ => return .ok (w :: rest)
    | [] => return .ok []

/-- Runs a program with other variables, or shows the variables. -/
def env (start : Start) : Tool := fun words => do
  match ← envOptions (words.length + 1) words with
  | .error text => misused text 125
  | .ok words =>
    match ← assignFront words with
    | [] =>
      for (name, v) in (← asks (·.bindings)).reverse do
        putLine (name ++ "=" ++ v.value.getD "")
      return 0
    | name :: args => become start (quoted name) name args

def timeout (start : Start) : Tool := fun words => do
  match words with
  | [] | [_] => misused "missing operand" 125
  | _ :: name :: args => become start ("failed to run command " ++ quoted name) name args

/-- The words in a text, of which quotes and backslashes keep parts together. -/
def wordsIn : Option Char → Option (List Char) → List Char → List (List Char)
  | _, word, [] => word.toList.map List.reverse
  | none, word, '\\' :: c :: rest => wordsIn none (some (c :: word.getD [])) rest
  | none, word, c :: rest =>
    if c = '\'' || c = '"' then wordsIn (some c) (some (word.getD [])) rest
    else if isSpace c then word.toList.map List.reverse ++ wordsIn none none rest
    else wordsIn none (some (c :: word.getD [])) rest
  | some quote, word, c :: rest =>
    if c = quote then wordsIn none word rest
    else wordsIn (some quote) (some (c :: word.getD [])) rest

def inGroups (size : Nat) : Nat → List String → List (List String)
  | 0, _ | _, [] => []
  | fuel + 1, words => words.take size :: inGroups size fuel (words.drop size)

def filledIn (mark new : String) (s : String) : String := s.replace mark new

/-- The options in front of words; what follows them are the operands. -/
def frontOptions (letters : String) : Nat → List String → Except String Usage
  | 0, words => .ok ⟨[], words⟩
  | _, [] => .ok ⟨[], []⟩
  | fuel + 1, w :: rest =>
    match w.toList with
    | ['-', '-'] => .ok ⟨[], rest⟩
    | '-' :: c :: more => do
      let (os, rest) ← Usage.short letters (c :: more) rest
      let u ← frontOptions letters fuel rest
      return { u with options := os ++ u.options }
    | _ => .ok ⟨[], w :: rest⟩

/-- Runs a program with the words that the input has. -/
def xargs (start : Start) : Tool := fun words => do
  match frontOptions "0I:L:n:P:rt" (words.length + 1) words with
  | .error text => misused text 1
  | .ok ⟨options, command⟩ =>
    let given (option : Char) : Option String := (options.find? (·.1 = option)).map (·.2)
    let input := Text.octetsOfBytes (((← readFile "-").toOption).getD .empty)
    let found : List String :=
      if (given '0').isSome then
        ((Text.splitAt '\x00' input).filter (!·.isEmpty)).map String.ofList
      else if (given 'I').isSome then
        ((linesOf input).1.map fun line => String.ofList (line.dropWhile isSpace)).filter (· ≠ "")
      else (wordsIn none none input).map String.ofList
    let name := command.headD "echo"
    let args := command.drop 1
    let calls : List (List String) := match given 'I' with
      | some mark => found.map fun w => args.map (filledIn mark w)
      | none =>
        let size := ((given 'n').bind fun n => Text.readDigits n.toList).getD found.length
        let groups := inGroups (max size 1) found.length found
        let groups := if groups.isEmpty && (given 'r').isNone then [[]] else groups
        groups.map (args ++ ·)
    let rec go : List (List String) → Nat → Run Nat
      | [], status => return status
      | call :: calls, status => do
        match ← start name call with
        | .error e =>
          complain (name ++ ": " ++ e.reason)
          return if e = .notFound || e = .notADirectory then 127 else 126
        | .ok (.exited 0) => go calls status
        | .ok (.exited 255) =>
          complain (name ++ ": exited with status 255; aborting")
          return 124
        | .ok (.exited _) => go calls 123
        | .ok (.killed signal) =>
          complain (name ++ ": terminated by signal " ++ Text.showNat signal)
          return 125
    go calls 0

end Tool

end TemporalDB.Shell
