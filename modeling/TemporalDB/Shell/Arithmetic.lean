import TemporalDB.Shell.Number
import TemporalDB.Shell.Syntax

/-!
# Arithmetic in scripts

Expressions over integers of 64 bits have operators of several strengths, a choice between two
values, and assignments to variables. What an operator does not need is read but has no effect.
`Arithmetic.value` finds the value.
-/

namespace TemporalDB.Shell.Arithmetic

inductive Lexeme where
  | number (n : Int64)
  | variable (name : String)
  | operator (s : String)
deriving DecidableEq

def operators : List String :=
  ["<<=", ">>=", "==", "!=", "<=", ">=", "&&", "||", "<<", ">>", "+=", "-=", "*=", "/=", "%=",
    "&=", "^=", "|=", "(", ")", "*", "/", "%", "+", "-", "<", ">", "&", "|", "^", "~", "!", "?",
    ":", "="]

def lexemes : Nat → List Char → List Lexeme
  | 0, _ | _, [] => []
  | fuel + 1, c :: rest =>
    let s := c :: rest
    if c = ' ' || c = '\t' || c = '\n' then lexemes fuel rest
    else if beginsName c then
      let name := s.takeWhile inName
      .variable (String.ofList name) :: lexemes fuel (s.drop name.length)
    else match natural? s with
      | some (n, rest) => .number (clamped n) :: lexemes fuel rest
      | none =>
        match operators.find? fun o => o.toList.isPrefixOf s with
        | some o => .operator o :: lexemes fuel (s.drop o.length)
        | none => .operator c.toString :: lexemes fuel rest

/-- Why an expression has no value. -/
inductive Fault where
  /-- The expression is not well formed, or divides by zero. -/
  | malformed (what : String)
  /-- The value of a variable is no number. -/
  | notANumber (s : String)

/-- The state of finding a value: what is left of the expression, and the assignments to variables
so far, the last one first. -/
structure State where
  rest : List Lexeme
  valueOf : String → String
  assigned : List (String × String)

abbrev Finding := StateT State (Except Fault)

def malformed {α : Type} (what : String) : Finding α := throw (.malformed what)

/-- Whether an operator is next; it is passed over. -/
def accept (o : String) : Finding Bool := do
  let s ← get
  match s.rest with
  | .operator p :: rest =>
    if o = p then
      set { s with rest }
      return true
    else return false
  | _ => return false

def look (name : String) : Finding Int64 := do
  let s ← get
  let text := match s.assigned.find? (·.1 = name) with
    | some (_, text) => text
    | none => s.valueOf name
  match integer? true text with
  | some n => return n
  | none => throw (.notANumber text)

/-- The strengths of the operators between two values; less binds more. -/
def strength? : String → Option Nat
  | "*" | "/" | "%" => some 0
  | "+" | "-" => some 1
  | "<<" | ">>" => some 2
  | "<" | "<=" | ">" | ">=" => some 3
  | "==" | "!=" => some 4
  | "&" => some 5
  | "^" => some 6
  | "|" => some 7
  | _ => none

def truth (b : Bool) : Int64 := if b then 1 else 0

def apply (o : String) (a b : Int64) : Finding Int64 :=
  match o with
  | "*" => return a * b
  | "/" => if b = 0 then malformed "division by zero" else return a / b
  | "%" => if b = 0 then malformed "division by zero" else return a % b
  | "+" => return a + b
  | "-" => return a - b
  | "<<" => return a <<< b
  | ">>" => return a >>> b
  | "<" => return truth (a < b)
  | "<=" => return truth (a ≤ b)
  | ">" => return truth (b < a)
  | ">=" => return truth (b ≤ a)
  | "==" => return truth (a = b)
  | "!=" => return truth (a ≠ b)
  | "&" => return a &&& b
  | "^" => return a ^^^ b
  | "|" => return a ||| b
  | _ => malformed "expecting primary"

abbrev Finder := Bool → Finding Int64

/-- The value of what stands between operators. -/
def primary (inner : Finder) : Nat → Bool → Finding Int64
  | 0, _ => malformed "expecting primary"
  | fuel + 1, needed => do
    let s ← get
    match s.rest with
    | .number n :: rest =>
      set { s with rest }
      return n
    | .variable name :: rest =>
      set { s with rest }
      if needed then look name else return 0
    | .operator o :: rest =>
      set { s with rest }
      match o with
      | "(" =>
        let n ← inner needed
        if ← accept ")" then return n else malformed "expecting ')'"
      | "+" => primary inner fuel needed
      | "-" => return -(← primary inner fuel needed)
      | "!" => return truth ((← primary inner fuel needed) = 0)
      | "~" => return ~~~(← primary inner fuel needed)
      | _ => malformed "expecting primary"
    | [] => malformed "expecting primary"

def nextOperator : Finding (Option (String × Nat)) := do
  match (← get).rest with
  | .operator o :: _ => return (strength? o).map fun n => (o, n)
  | _ => return none

/-- The value of operators that bind more than a bound, applied to a value in front of them. -/
def operations (operand : Finder) : Nat → Nat → Int64 → Bool → Finding Int64
  | 0, _, a, _ => return a
  | fuel + 1, bound, a, needed => do
    match ← nextOperator with
    | none => return a
    | some (o, strength) =>
      if bound ≤ strength then return a
      else
        modify fun s => { s with rest := s.rest.drop 1 }
        let b ← operations operand fuel strength (← operand needed) needed
        let n ← if needed then apply o a b else pure b
        operations operand fuel bound n needed

def conjunction (operand : Finder) : Nat → Bool → Finding Int64
  | 0, _ => malformed "expecting primary"
  | fuel + 1, needed => do
    let a ← operand needed
    if ← accept "&&" then
      let b ← conjunction operand fuel (needed && a ≠ 0)
      return truth (a ≠ 0 && b ≠ 0)
    else return a

def disjunction (operand : Finder) : Nat → Bool → Finding Int64
  | 0, _ => malformed "expecting primary"
  | fuel + 1, needed => do
    let a ← operand needed
    if ← accept "||" then
      let b ← disjunction operand fuel (needed && a = 0)
      return truth (a ≠ 0 || b ≠ 0)
    else return a

def choice (operand inner : Finder) : Nat → Bool → Finding Int64
  | 0, _ => malformed "expecting primary"
  | fuel + 1, needed => do
    let a ← operand needed
    if ← accept "?" then
      let b ← inner (needed && a ≠ 0)
      if ← accept ":" then
        let c ← choice operand inner fuel (needed && a = 0)
        return if a ≠ 0 then b else c
      else malformed "expecting ':'"
    else return a

def assignment? : String → Option (Option String)
  | "=" => some none
  | "<<=" => some (some "<<")
  | ">>=" => some (some ">>")
  | "+=" => some (some "+")
  | "-=" => some (some "-")
  | "*=" => some (some "*")
  | "/=" => some (some "/")
  | "%=" => some (some "%")
  | "&=" => some (some "&")
  | "^=" => some (some "^")
  | "|=" => some (some "|")
  | _ => none

def expression : Nat → Finder
  | 0, _ => malformed "expecting primary"
  | fuel + 1, needed => do
    let inner := expression fuel
    let operand (needed : Bool) : Finding Int64 := do
      operations (primary inner fuel) fuel 8 (← primary inner fuel needed) needed
    let otherwise := choice (disjunction (conjunction operand fuel) fuel) inner fuel needed
    let s ← get
    match s.rest with
    | .variable name :: .operator o :: rest =>
      match assignment? o with
      | none => otherwise
      | some applied =>
        set { s with rest }
        let b ← inner needed
        if needed then
          let n ← match applied with
            | none => pure b
            | some o => apply o (← look name) b
          modify fun s => { s with assigned := (name, Text.showInt n.toInt) :: s.assigned }
          return n
        else return b
    | _ => otherwise

def value (text : List Char) (valueOf : String → String) :
    Except Fault (Int64 × List (String × String)) := do
  let ls := lexemes text.length text
  let (n, s) ← (expression (ls.length + 1) true).run ⟨ls, valueOf, []⟩
  if s.rest.isEmpty then .ok (n, s.assigned.reverse) else .error (.malformed "expecting EOF")

end TemporalDB.Shell.Arithmetic
