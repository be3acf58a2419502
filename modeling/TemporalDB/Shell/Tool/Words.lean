import TemporalDB.Shell.Regex
import TemporalDB.Shell.Tool.Lines

/-!
# Programs for words

Programs that work on the words they are given: they write them, take names of files apart, count,
and find the values of expressions.
-/

namespace TemporalDB.Shell.Tool

open Text

/-! ## Writing -/

/-- Writes its words. Backslashes have a meaning only if that is asked for. -/
def echo : Tool := fun words => do
  let isOption (w : String) : Bool :=
    match w.toList with
    | '-' :: c :: more => (c :: more).all "neE".toList.contains
    | _ => false
  let options := (words.takeWhile isOption).flatMap String.toList
  let words := words.dropWhile isOption
  let escapes := (options.filter fun c => c = 'e' || c = 'E').getLast? = some 'e'
  let s := (String.intercalate " " words).toList
  let (s, on) := if escapes then unescape s.length s else (s, true)
  put (if on && !options.contains 'n' then s ++ ['\n'] else s)
  return 0

def printf : Tool := fun words => do
  let words := if words.head? = some "--" then words.drop 1 else words
  match words with
  | [] => misused "missing operand" 1
  | format :: words =>
    let p := printed format words
    for (word, fault) in p.faults do
      complain (quoted word ++ match fault with
        | .noNumber => ": expected a numeric value"
        | .onlyPartly => ": value not completely converted"
        | .outOfRange => ": Numerical result out of range")
    put p.written.reverse
    match p.failure with
    | some fault =>
      complain ((match fault with
        | .badDirective directive => directive
        | .noLetter => "%") ++ ": invalid conversion specification")
      return 1
    | none =>
      match p.words with
      | w :: _ =>
        if p.stopped then pure ()
        else complain ("warning: ignoring excess arguments, starting with " ++ quoted w)
      | [] => pure ()
      return if p.faults.isEmpty then 0 else 1

def bracket : Tool := fun words => do
  if words.getLast? = some "]" then Builtin.test words.dropLast
  else
    complain "missing ']'"
    return 2

/-- Writes a line over and over, as often as any reader takes. -/
def yes : Tool := fun words => do
  let line := (if words.isEmpty then "y" else String.intercalate " " words) ++ "\n"
  let count := 262144 / line.length + 1
  put (List.replicate count line.toList).flatten
  return 0

/-! ## Names of files -/

/-- A path without the slashes at its end, the last character first. -/
def reversedName (word : String) : List Char := word.toList.reverse.dropWhile (· = '/')

/-- What follows the last slash of a path; slashes at its end do not count. -/
def baseName (word : String) : String :=
  let reversed := reversedName word
  if reversed.isEmpty then (if word.isEmpty then "" else "/")
  else String.ofList (reversed.takeWhile (· ≠ '/')).reverse

def withoutEnd (ending name : String) : String :=
  if name ≠ ending && name.endsWith ending then
    String.ofList (name.toList.take (name.length - ending.length))
  else name

/-- Shows what follows the last slashes of paths. -/
def basename : Tool := withOptions "as:z" [("multiple", 'a'), ("suffix", 's')] 1 fun u => do
  let strip (ending name : String) : Run Unit := putLine (withoutEnd ending (baseName name))
  match u.operands with
  | [] => misused "missing operand" 1
  | names@(name :: more) =>
    if u.has 'a' || u.has 's' then
      for name in names do strip ((u.get? 's').getD "") name
      return 0
    else match more with
      | _ :: extra :: _ => misused ("extra operand " ++ quoted extra) 1
      | _ =>
        strip (more.headD "") name
        return 0

def dirname : Tool := withOptions "z" [("zero", 'z')] 1 fun u => do
  if u.operands.isEmpty then misused "missing operand" 1
  else
    for name in u.operands do
      let above := ((reversedName name).dropWhile (· ≠ '/')).dropWhile (· = '/')
      putLine (if !above.isEmpty then String.ofList above.reverse
        else if name.startsWith "/" then "/" else ".")
    return 0

/-! ## Counting -/

/-- A number with places behind the point. -/
structure Fixed where
  /-- The number as if the point were behind the places. -/
  mantissa : Int
  places : Nat

namespace Fixed

def read? (word : String) : Option Fixed := do
  let (negative, body) := match word.toList.dropWhile isSpace with
    | '-' :: rest => (true, rest)
    | '+' :: rest => (false, rest)
    | rest => (false, rest)
  let whole := body.takeWhile Char.isDigit
  let rest := body.drop whole.length
  let fraction := if rest.head? = some '.' then rest.drop 1 else []
  if (whole.isEmpty && fraction.isEmpty) || !fraction.all Char.isDigit ||
    (rest.head? ≠ some '.' && !rest.isEmpty) then none
  else
    let n : Int := digitsValue (whole ++ fraction)
    some ⟨if negative then -n else n, fraction.length⟩

def scaled (x : Fixed) (places : Nat) : Int := x.mantissa * powerOfTen (places - x.places)

def «show» (places width : Nat) (mantissa : Int) : List Char :=
  let ds := zeroPadded (places + 1) mantissa.natAbs
  let body := if places = 0 then ds
    else ds.take (ds.length - places) ++ '.' :: ds.drop (ds.length - places)
  let sign := if mantissa < 0 then ['-'] else []
  sign ++ List.replicate (width - sign.length - body.length) '0' ++ body

end Fixed

/-- Shows the numbers from one to another. -/
def seq : Tool := fun words => do
  let isNumber (w : String) : Bool :=
    match w.toList with
    | '-' :: c :: _ => c.isDigit || c = '.'
    | _ => false
  -- a number that begins with a minus sign is no option
  let front := words.findIdx? isNumber
  let guarded := match front with
    | some i => if (words.take i).contains "--" then words
      else words.take i ++ "--" :: words.drop i
    | none => words
  withOptions "f:s:w" [("separator", 's'), ("equal-width", 'w')] 1 (fun u => do
    match u.operands.find? fun w => (Fixed.read? w).isNone with
    | some w => misused ("invalid floating point argument: " ++ quoted w) 1
    | none =>
      let numbers := u.operands.filterMap Fixed.read?
      let range : Option (Fixed × Fixed × Fixed) := match numbers with
        | [last] => some (⟨1, 0⟩, ⟨1, 0⟩, last)
        | [first, last] => some (first, ⟨1, 0⟩, last)
        | [first, step, last] => some (first, step, last)
        | _ => none
      match range with
      | none =>
        match u.operands with
        | [] => misused "missing operand" 1
        | operands => misused ("extra operand " ++ quoted (operands[3]?.getD "")) 1
      | some (first, step, last) =>
        let shown := max first.places step.places
        let places := max shown last.places
        let start := first.scaled places
        let by' := step.scaled places
        if by' = 0 then
          misused ("invalid Zero increment value: " ++ quoted (u.operands[1]?.getD "")) 1
        else
          let count := (Int.fdiv (last.scaled places - start) by' + 1).toNat
          let factor : Int := powerOfTen (places - shown)
          let values := (List.range (min count 1000000)).map fun (i : Nat) =>
            (start + i * by') / factor
          let width := (values.map fun n => (Fixed.show shown 0 n).length).foldl max 0
          let texts := values.map (Fixed.show shown (if u.has 'w' then width else 0))
          let between := ((u.get? 's').getD "\n").toList
          if !texts.isEmpty then put ((texts.intersperse between).flatten ++ ['\n'])
          return 0) guarded

/-- Waits. Nothing else happens meanwhile, so it is over at once. -/
def sleep : Tool := withOptions "" [] 1 fun u => do
  let isInterval (w : String) : Bool :=
    let s := w.toList
    let number := if (s.getLast?.map "smhd".toList.contains).getD false then s.dropLast else s
    match Fixed.read? (String.ofList number) with
    | some x => 0 ≤ x.mantissa
    | none => number = "infinity".toList
  match u.operands with
  | [] => misused "missing operand" 1
  | operands =>
    match operands.filter (!isInterval ·) with
    | [] => return 0
    | bad =>
      for w in bad do complain ("invalid time interval " ++ quoted w)
      sayHelp
      return 1

/-! ## Expressions -/

/-- Why an expression has no value. -/
inductive ExprFault where
  | missingArgument (after : String)
  | unexpectedArgument (word : String)
  | unexpectedClosing
  | closingExpectedAfter (word : String)
  | closingExpectedInstead (word : String)
  | notAnInteger
  | divisionByZero
  | badRegex (fault : Regex.Fault)

def ExprFault.message : ExprFault → String
  | missingArgument after => "syntax error: missing argument after " ++ quoted after
  | unexpectedArgument word => "syntax error: unexpected argument " ++ quoted word
  | unexpectedClosing => "syntax error: unexpected ')'"
  | closingExpectedAfter word => "syntax error: expecting ')' after " ++ quoted word
  | closingExpectedInstead word => "syntax error: expecting ')' instead of " ++ quoted word
  | notAnInteger => "non-integer argument"
  | divisionByZero => "division by zero"
  | badRegex fault => fault.message

/-- The words of an expression: the one that has been read last, and what is left. -/
structure ExprWords where
  last : String
  rest : List String

abbrev ExprFinding := StateT ExprWords (Except ExprFault)

namespace Expr

def integer? (word : String) : Option Int :=
  match word.toList with
  | '-' :: ds => (readDigits ds).map fun n => -(n : Int)
  | ds => (readDigits ds).map Int.ofNat

def isNull (word : String) : Bool := word.isEmpty || integer? word = some 0

def next : ExprFinding String := do
  let s ← get
  match s.rest with
  | [] => throw (.missingArgument s.last)
  | w :: rest =>
    set (ExprWords.mk w rest)
    return w

/-- Whether one of some words is next; it is passed over. -/
def accept (words : List String) : ExprFinding (Option String) := do
  let s ← get
  match s.rest with
  | w :: rest =>
    if words.contains w then
      set (ExprWords.mk w rest)
      return some w
    else return none
  | [] => return none

def calculated (operator : String) (a b : String) : ExprFinding String := do
  match integer? a, integer? b with
  | some x, some y =>
    if (operator = "/" || operator = "%") && y = 0 then throw .divisionByZero
    else return showInt (match operator with
      | "+" => x + y
      | "-" => x - y
      | "*" => x * y
      | "/" => Int.tdiv x y
      | _ => Int.tmod x y)
  | _, _ => throw .notAnInteger

/-- Whether two values compare as an operator says: as integers if both are. -/
def compared (operator : String) (a b : String) : Bool :=
  let (less, same) := match integer? a, integer? b with
    | some x, some y => (decide (x < y), decide (x = y))
    | _, _ => (decide (a.toList < b.toList), decide (a = b))
  match operator with
  | "<" => less
  | "<=" => less || same
  | "=" | "==" => same
  | "!=" => !same
  | ">=" => !less
  | _ => !less && !same

def hasGroup : Regex → Bool
  | .group _ _ => true
  | .sequence a b | .either a b => hasGroup a || hasGroup b
  | .repetition r _ _ => hasGroup r
  | _ => false

/-- What a regular expression finds at the front of a text: what its first group has matched, or
how much it has matched. -/
def matched (text pattern : String) : ExprFinding String := do
  match Regex.read false pattern.toList with
  | .error fault => throw (.badRegex fault)
  | .ok r =>
    return match Regex.longest false r ⟨[], text.toList, []⟩ with
      | some t =>
        if hasGroup r then
          String.ofList (((t.groups.find? (·.1 = 1)).map (·.2)).getD [])
        else showNat (text.length - t.after.length)
      | none => if hasGroup r then "" else "0"

/-- The operators between two values by their strength; the first bind least. -/
def strengths : List (List String) :=
  [["|"], ["&"], ["<", "<=", "=", "==", "!=", ">=", ">"], ["+", "-"], ["*", "/", "%"], [":"]]

def applied (operator a b : String) (needed : Bool) : ExprFinding String := do
  match operator with
  | "|" => return if !isNull a then a else if !isNull b then b else "0"
  | "&" => return if isNull a || isNull b then "0" else a
  | ":" => matched a b
  | "+" | "-" | "*" | "/" | "%" => if needed then calculated operator a b else return a
  | _ => return if compared operator a b then "1" else "0"

def part (text start length : String) : String :=
  match integer? start, integer? length with
  | some i, some n =>
    if i ≤ 0 || n ≤ 0 then "" else String.ofList ((text.toList.drop (i.toNat - 1)).take n.toNat)
  | _, _ => ""

/-- The number of the first character that is one of some; zero if there is none. -/
def index (text characters : String) : String :=
  match text.toList.findIdx? characters.toList.contains with
  | some i => showNat (i + 1)
  | none => "0"

mutual

def value : Nat → List (List String) → Bool → ExprFinding String
  | 0, _, _ => return ""
  | fuel + 1, strengths, needed =>
    match strengths with
    | [] => single fuel needed
    | operators :: stronger => do
      let first ← value fuel stronger needed
      onward fuel operators stronger needed first

/-- The value when operators of one strength follow a value. -/
def onward : Nat → List String → List (List String) → Bool → String → ExprFinding String
  | 0, _, _, _, a => return a
  | fuel + 1, operators, stronger, needed, a => do
    match ← accept operators with
    | none => return a
    | some operator =>
      let decided := (operator = "|" && !isNull a) || (operator = "&" && isNull a)
      let b ← value fuel stronger (needed && !decided)
      let c ← applied operator a b needed
      onward fuel operators stronger needed c

/-- The value of what stands between operators. -/
def single : Nat → Bool → ExprFinding String
  | 0, _ => return ""
  | fuel + 1, needed => do
    let w ← next
    match w with
    | "+" => next
    | ")" => throw .unexpectedClosing
    | "(" =>
      let v ← value fuel strengths needed
      let s ← get
      match s.rest with
      | [] => throw (.closingExpectedAfter s.last)
      | ")" :: rest =>
        set (ExprWords.mk ")" rest)
        return v
      | other :: _ => throw (.closingExpectedInstead other)
    | "length" => return showNat (← single fuel needed).length
    | "match" =>
      let text ← single fuel needed
      matched text (← single fuel needed)
    | "index" =>
      let text ← single fuel needed
      return index text (← single fuel needed)
    | "substr" =>
      let text ← single fuel needed
      let start ← single fuel needed
      return part text start (← single fuel needed)
    | w => return w

end

end Expr

def expr : Tool := fun words => do
  let words := if words.head? = some "--" then words.drop 1 else words
  if words.isEmpty then misused "missing operand" 2
  else
    match (Expr.value (16 * words.length + 16) Expr.strengths true).run ⟨"", words⟩ with
    | .error fault =>
      complain fault.message
      return 2
    | .ok (v, s) =>
      match s.rest with
      | w :: _ =>
        complain (ExprFault.unexpectedArgument w).message
        return 2
      | [] =>
        putLine v
        return if Expr.isNull v then 1 else 0

end TemporalDB.Shell.Tool
