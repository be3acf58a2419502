import TemporalDB.Shell.Machine

/-!
# Conditions

A condition compares texts or integers or asks about files. With up to four words its meaning goes
by their number; otherwise words are joined by `-a` and `-o`, the former of which binds more, and
may be negated and bracketed.
-/

namespace TemporalDB.Shell.Condition

inductive WordKind where
  | unary
  | binary
  | negation
  | both
  | either
  | open
  | close
deriving DecidableEq

def kind? (word : String) : Option WordKind :=
  if ["-r", "-w", "-x", "-e", "-f", "-d", "-c", "-b", "-p", "-u", "-g", "-k", "-s", "-t", "-z",
      "-n", "-h", "-O", "-G", "-L", "-S"].contains word then some .unary
  else if ["=", "!=", "<", ">", "-eq", "-ne", "-ge", "-gt", "-le", "-lt", "-nt", "-ot",
      "-ef"].contains word then some .binary
  else match word with
    | "!" => some .negation
    | "-a" => some .both
    | "-o" => some .either
    | "(" => some .open
    | ")" => some .close
    | _ => none

/-- Whether the first word, which could ask something, is asked about: nothing follows it, or only
something that compares it. -/
def isOperand : List String → Bool
  | _ :: s :: _ :: _ => kind? s = some .binary
  | [_, _] => false
  | _ => true

def lead (words : List String) : Option WordKind :=
  match words with
  | [] => none
  | w :: rest =>
    match kind? w with
    | some .unary => if isOperand words then none else some .unary
    | some .open => if rest.isEmpty then none else some .open
    | s => s

def number (word : String) : Run Int64 := do
  match integer? false word with
  | some n => return n
  | none => failNumber word

/-- Whether a question about a file has the answer yes. -/
def ask (question word : String) : Run Bool := do
  let t ← files
  let p := path word
  let special := isNull word || (device? word).isSome
  let there := special || t.exists p
  match question with
  | "-z" => return word.isEmpty
  | "-n" => return !word.isEmpty
  | "-f" => return t.isFile p
  | "-d" => return t.isDirectory p
  | "-e" | "-r" | "-w" | "-O" | "-G" => return there
  | "-x" =>
    let programs ← sees (·.programs)
    return t.isDirectory p || ((t.place p).toOption.map programs.contains).getD false
  | "-s" => return t.isDirectory p || ((t.read p).toOption.getD .empty).size ≠ 0
  | "-c" => return special
  | "-t" =>
    let _ ← number word
    return false
  | _ => return false

def compare (a operator b : String) : Run Bool := do
  let integers (holds : Int64 → Int64 → Bool) : Run Bool := return holds (← number a) (← number b)
  match operator with
  | "=" => return a = b
  | "!=" => return a ≠ b
  | "<" => return a.toList < b.toList
  | ">" => return b.toList < a.toList
  | "-eq" => integers fun x y => x = y
  | "-ne" => integers fun x y => x ≠ y
  | "-lt" => integers fun x y => x < y
  | "-le" => integers fun x y => x ≤ y
  | "-gt" => integers fun x y => y < x
  | "-ge" => integers fun x y => y ≤ x
  | "-ef" =>
    let t ← files
    return t.exists (path a) && (t.place (path a)).toOption = (t.place (path b)).toOption
  | _ => return false

def failArgument {α : Type} (word : String) : Run α := fail (word ++ ": argument expected")

mutual

/-- Whether the condition at the front of words holds, and the words from its last one on. The
first word is looked at as what it is given as. -/
def either : Nat → Option WordKind → List String → Run (Bool × List String)
  | 0, _, words => return (false, words)
  | fuel + 1, s, words => do
    let (holds, words) ← both fuel s words
    if lead (words.drop 1) = some .either then
      let (other, words) ← either fuel (lead (words.drop 2)) (words.drop 2)
      return (holds || other, words)
    else return (holds, words)

def both : Nat → Option WordKind → List String → Run (Bool × List String)
  | 0, _, words => return (false, words)
  | fuel + 1, s, words => do
    let (holds, words) ← negated fuel s words
    if lead (words.drop 1) = some .both then
      let (other, words) ← both fuel (lead (words.drop 2)) (words.drop 2)
      return (holds && other, words)
    else return (holds, words)

def negated : Nat → Option WordKind → List String → Run (Bool × List String)
  | 0, _, words => return (false, words)
  | fuel + 1, s, words => do
    if s = some .negation then
      let next := words.drop 1
      if next.isEmpty then return (true, words)
      else
        let (holds, words) ← negated fuel (lead next) next
        return (!holds, words)
    else primary fuel s words

/-- As `either`, for what is not joined. -/
def primary : Nat → Option WordKind → List String → Run (Bool × List String)
  | 0, _, words => return (false, words)
  | fuel + 1, s, words => do
    match s, words with
    | _, [] => return (false, [])
    | some .open, _ :: rest =>
      let s := lead rest
      if s = some .close then return (false, rest)
      else
        let (holds, words) ← either fuel s rest
        let words := words.drop 1
        if lead words = some .close then return (holds, words)
        else fail "closing paren expected"
    | some .unary, question :: rest =>
      match rest with
      | [] => failArgument question
      | word :: _ => return (← ask question word, rest)
    | _, a :: rest =>
      if lead rest = some .binary then
        match rest with
        | operator :: b :: after => return (← compare a operator b, b :: after)
        | _ => failArgument (rest.headD "")
      else return (!a.isEmpty, words)

end

def evaluate (s : Option WordKind) (words : List String) : Run Bool := do
  let (holds, last) ← either (4 * words.length + 4) s words
  match last with
  | word :: _ :: _ =>
    fail (if word.isEmpty then "unexpected operator" else word ++ ": unexpected operator")
  | _ => return holds

def holds : Nat → List String → Run Bool
  | 0, _ | _, [] => return false
  | fuel + 1, words => do
    let isComparison : Bool := match words with
      | [_, operator, _] => kind? operator = some .binary
      | _ => false
    if isComparison then evaluate none words
    else if words.length = 3 || words.length = 4 then
      if words.head? = some "(" && words.getLast? = some ")" then
        holds fuel (words.drop 1).dropLast
      else if words.head? = some "!" then return !(← holds fuel (words.drop 1))
      else evaluate (lead words) words
    else evaluate (lead words) words

def ofWords (words : List String) : Run Bool := holds (words.length + 1) words

end TemporalDB.Shell.Condition
