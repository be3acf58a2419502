import TemporalDB.Shell.Builtin

/-!
# Programs

A program takes its words, works on files and streams, and gives a status. Its options may stand
among its operands; what follows a double dash is an operand.
-/

namespace TemporalDB.Shell

abbrev Tool := List String → Run Nat

/-- The options and operands of a program. An option has its argument with it, if it takes one. -/
structure Usage where
  options : List (Char × String)
  operands : List String

namespace Usage

def has (u : Usage) (letter : Char) : Bool := u.options.any (·.1 = letter)

def get? (u : Usage) (letter : Char) : Option String :=
  (u.options.reverse.find? (·.1 = letter)).map (·.2)

def takes (letters : String) (c : Char) : Bool :=
  ((letters.toList.dropWhile (· ≠ c)).drop 1).head? = some ':'

def long (letters : String) (longs : List (String × Char)) (word : String) (next : List String) :
    Except String ((Char × String) × List String) :=
  let name := String.ofList ((word.toList.drop 2).takeWhile (· ≠ '='))
  let given := word.toList.dropWhile (· ≠ '=')
  match longs.find? (·.1 = name) with
  | none => .error ("unrecognized option '" ++ word ++ "'")
  | some (_, c) =>
    if !given.isEmpty then .ok ((c, String.ofList (given.drop 1)), next)
    else if takes letters c then
      match next with
      | [] => .error ("option '--" ++ name ++ "' requires an argument")
      | a :: rest => .ok ((c, a), rest)
    else .ok ((c, ""), next)

def short (letters : String) : List Char → List String →
    Except String (List (Char × String) × List String)
  | [], next => .ok ([], next)
  | c :: more, next =>
    if c = ':' || !letters.toList.contains c then
      .error ("invalid option -- '" ++ c.toString ++ "'")
    else if takes letters c then
      if !more.isEmpty then .ok ([(c, String.ofList more)], next)
      else match next with
        | [] => .error ("option requires an argument -- '" ++ c.toString ++ "'")
        | a :: rest => .ok ([(c, a)], rest)
    else (short letters more next).map fun (os, next) => ((c, "") :: os, next)

def read (letters : String) (longs : List (String × Char)) : Nat → List String →
    Except String Usage
  | 0, words => .ok ⟨[], words⟩
  | _, [] => .ok ⟨[], []⟩
  | fuel + 1, w :: rest =>
    let onward (os : List (Char × String)) (rest : List String) : Except String Usage :=
      (read letters longs fuel rest).map fun u => { u with options := os ++ u.options }
    match w.toList with
    | ['-', '-'] => .ok ⟨[], rest⟩
    | '-' :: '-' :: _ =>
      match long letters longs w rest with
      | .error e => .error e
      | .ok (o, rest) => onward [o] rest
    | '-' :: c :: more =>
      match short letters (c :: more) rest with
      | .error e => .error e
      | .ok (os, rest) => onward os rest
    | _ => (read letters longs fuel rest).map fun u => { u with operands := w :: u.operands }

end Usage

namespace Tool

def complain (text : String) : Run Unit := do
  sayLine ((← asks (·.name)) ++ ": " ++ text)

def sayHelp : Run Unit := do
  sayLine ("Try '" ++ (← asks (·.name)) ++ " --help' for more information.")

def misused (text : String) (status : Nat) : Run Nat := do
  complain text
  sayHelp
  return status

def withOptions (letters : String) (longs : List (String × Char)) (status : Nat)
    (run : Usage → Run Nat) : Tool := fun words =>
  match Usage.read letters longs (words.length + 1) words with
  | .error text => misused text status
  | .ok u => run u

/-- Writes to the output. A program that cannot write ends. -/
def put (s : List Char) : Run Unit := do
  if !(← writeTo 1 s) then
    complain ("write error: " ++ IoError.badStream.reason)
    stopWith 1 .exit

def putLine (s : String) : Run Unit := put (s ++ "\n").toList

/-- The name of a file in a complaint. Where it could be misread it stands in quotes. -/
def shown (name : String) : String :=
  let plain (c : Char) : Bool := c.isAlphanum || "_@%+=:,./-".toList.contains c || 0x7F < c.toNat
  if !name.isEmpty && name.toList.all plain then name else "'" ++ name ++ "'"

def quoted (name : String) : String := "'" ++ name ++ "'"

def forEach (words : List String) (act : String → Run Nat) : Run Nat :=
  words.foldlM (fun status w => return max status (← act w)) 0

/-- What the files hold that words name, or the input if there are none, taken together. A file that
cannot be read is complained of. -/
def contents (words : List String) (complaint : String → IoError → String) :
    Run (List (String × List Char) × Nat) := do
  let words := if words.isEmpty then ["-"] else words
  words.foldlM (fun (found, status) w => do
    match ← readFile w with
    | .ok bytes => return (found ++ [(w, Text.octetsOfBytes bytes)], status)
    | .error e =>
      complain (complaint w e)
      return (found, 1)) ([], 0)

def plainComplaint (name : String) (e : IoError) : String := shown name ++ ": " ++ e.reason

def linesOf (s : List Char) : List (List Char) × Bool :=
  match (Text.splitAt '\n' s).reverse with
  | [] :: rest => (rest.reverse, true)
  | lines => (lines.reverse, false)

end Tool

end TemporalDB.Shell
