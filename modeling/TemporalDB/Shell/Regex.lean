import TemporalDB.Shell.Pattern

/-!
# Regular expressions

In a basic expression brackets, braces and bars have a meaning behind a backslash, in an extended
one without it. Of all matches at a place the longest counts. A group is what the last round of it
has matched.
-/

namespace TemporalDB.Shell

/-- A regular expression. -/
inductive Regex where
  | empty
  | among (negated : Bool) (members : List Member)
  | any
  | lineStart
  | lineEnd
  | sequence (first second : Regex)
  | either (first second : Regex)
  /-- So many rounds. -/
  | repetition (body : Regex) (least : Nat) (most : Option Nat)
  | group (number : Nat) (body : Regex)
  /-- What a group has matched, again. -/
  | again (number : Nat)

namespace Regex

def char (c : Char) : Regex := .among false [.range c c]

/-! ## Reading -/

/-- Why a text is no regular expression. -/
inductive Fault where
  | openSet
  /-- Nothing follows a bracket that opens a set. -/
  | bareSet
  | openGroup
  | closedGroup
  | openRounds
  | badRounds
  | badRange
  | badClass
  /-- Nothing stands before what asks for rounds. -/
  | nothingRepeated
  | lastBackslash
  | noSuchGroup

def Fault.message : Fault → String
  | openSet => "Unmatched [, [^, [:, [., or [="
  | bareSet => "Invalid regular expression"
  | openGroup => "Unmatched ( or \\("
  | closedGroup => "Unmatched ) or \\)"
  | openRounds => "Unmatched \\\x7b"
  | badRounds => "Invalid content of \\\x7b\\\x7d"
  | badRange => "Invalid range end"
  | badClass => "Invalid character class name"
  | nothingRepeated => "Invalid preceding regular expression"
  | lastBackslash => "Trailing backslash"
  | noSuchGroup => "Invalid back reference"

/-- The state of reading an expression: what is left, and how many groups there are. -/
structure Source where
  rest : List Char
  groups : Nat

abbrev Reading := StateT Source (Except Fault)

def refuse {α : Type} (fault : Fault) : Reading α := throw fault

/-- Whether an operator is next, with or without a backslash; it is passed over. -/
def accept (extended : Bool) (c : Char) : Reading Bool := do
  let s ← get
  match s.rest with
  | '\\' :: d :: rest =>
    if !extended && c = d then
      set { s with rest }
      return true
    else return false
  | d :: rest =>
    if extended && c = d then
      set { s with rest }
      return true
    else return false
  | [] => return false

def isNext (extended : Bool) (c : Char) (s : List Char) : Bool :=
  if extended then s.head? = some c else s.take 2 = ['\\', c]

def readNumber : Reading (Option Nat) := do
  let s ← get
  let ds := s.rest.takeWhile Char.isDigit
  set { s with rest := s.rest.drop ds.length }
  return if ds.isEmpty then none else some (ds.foldl (fun n d => n * 10 + (d.toNat - '0'.toNat)) 0)

def readRounds (extended : Bool) : Reading (Nat × Option Nat) := do
  let least ← readNumber
  let s ← get
  let most ← match s.rest with
    | ',' :: rest =>
      set { s with rest }
      readNumber
    | _ => pure least
  if ← accept extended '\x7d' then
    match least, most with
    | none, none => refuse .badRounds
    | some m, some n => if n < m then refuse .badRounds else return (m, some n)
    | m, n => return (m.getD 0, n)
  else if (← get).rest.isEmpty then refuse .openRounds
  else refuse .badRounds

/-- Puts the rounds to an expression that are asked for behind it. -/
def readRepeated (extended : Bool) : Nat → Regex → Reading Regex
  | 0, r => return r
  | fuel + 1, r => do
    let s ← get
    match s.rest with
    | '*' :: rest =>
      set { s with rest }
      readRepeated extended fuel (.repetition r 0 none)
    | _ =>
      if ← accept extended '+' then readRepeated extended fuel (.repetition r 1 none)
      else if ← accept extended '?' then readRepeated extended fuel (.repetition r 0 (some 1))
      else if ← accept extended '\x7b' then
        let (least, most) ← readRounds extended
        readRepeated extended fuel (.repetition r least most)
      else return r

def classOf (c : Char) : Option Regex :=
  match c with
  | 'w' => some (.among false [.named "alnum", .range '_' '_'])
  | 'W' => some (.among true [.named "alnum", .range '_' '_'])
  | 's' => some (.among false [.named "space"])
  | 'S' => some (.among true [.named "space"])
  | 'n' => some (char '\n')
  | 't' => some (char '\t')
  | _ => none

def readSet : Reading Regex := do
  let s ← get
  let negated := s.rest.head? = some '^'
  let marked := (if negated then s.rest.drop 1 else s.rest).map fun c => (c, false)
  match Pattern.readMembers marked.length marked with
  | none => refuse (if s.rest.isEmpty then .bareSet else .openSet)
  | some (members, rest) =>
    let isBackwards : Member → Bool
      | .range c d => d < c
      | _ => false
    let isUnknown : Member → Bool
      | .named name => !Member.classes.contains name
      | _ => false
    if members.any isBackwards then refuse .badRange
    else if members.any isUnknown then refuse .badClass
    else
      set { s with rest := rest.map fun (c : Char × Bool) => c.1 }
      return .among negated members

mutual

def readEither (extended : Bool) : Nat → Reading Regex
  | 0 => return .empty
  | fuel + 1 => do
    let first ← readSequence extended fuel true
    if ← accept extended '|' then return .either first (← readEither extended fuel)
    else return first

def readSequence (extended : Bool) : Nat → Bool → Reading Regex
  | 0, _ => return .empty
  | fuel + 1, atStart => do
    let s ← get
    if s.rest.isEmpty || isNext extended '|' s.rest || isNext extended ')' s.rest then
      return .empty
    else
      let first ← readSingle extended fuel atStart
      let rest ← readSequence extended fuel (first matches .lineStart)
      return .sequence first rest

def readSingle (extended : Bool) : Nat → Bool → Reading Regex
  | 0, _ => return .empty
  | fuel + 1, atStart => do
    let s ← get
    let rounds (rest : List Char) (r : Regex) : Reading Regex := do
      set { s with rest }
      readRepeated extended rest.length r
    if isNext extended '(' s.rest then
      let number := s.groups + 1
      set { s with rest := s.rest.drop (if extended then 1 else 2), groups := number }
      let body ← readEither extended fuel
      if ← accept extended ')' then
        readRepeated extended (← get).rest.length (.group number body)
      else refuse .openGroup
    else match s.rest with
      | [] => return .empty
      | '\\' :: c :: rest =>
        if c.isDigit && c ≠ '0' then
          let number := c.toNat - '0'.toNat
          if s.groups < number then refuse .noSuchGroup else rounds rest (.again number)
        else rounds rest ((classOf c).getD (char c))
      | ['\\'] => refuse .lastBackslash
      | '.' :: rest => rounds rest .any
      | '[' :: rest =>
        set { s with rest }
        let r ← readSet
        readRepeated extended rest.length r
      | '^' :: rest =>
        if extended || atStart then
          set { s with rest }
          return .lineStart
        else rounds rest (char '^')
      | '$' :: rest =>
        if extended || rest.isEmpty || isNext extended ')' rest || isNext extended '|' rest then
          set { s with rest }
          return .lineEnd
        else rounds rest (char '$')
      | c :: rest =>
        if extended && "*+?\x7b".toList.contains c then refuse .nothingRepeated
        else rounds rest (char c)

end

def read (extended : Bool) (text : List Char) : Except Fault Regex := do
  let (r, s) ← (readEither extended (4 * text.length + 4)).run ⟨text, 0⟩
  if s.rest.isEmpty then return r else throw .closedGroup

/-! ## Matching -/

/-- A place in a text: what is before it, the last character first, what follows it, and what the
groups have matched. -/
structure Spot where
  before : List Char
  after : List Char
  groups : List (Nat × List Char)

def Spot.skip (s : Spot) (n : Nat) : Spot :=
  { s with before := (s.after.take n).reverse ++ s.before, after := s.after.drop n }

def Spot.longest (spots : List Spot) : Option Spot :=
  spots.foldl (fun best t =>
    match best with
    | none => some t
    | some b => if t.after.length < b.after.length then some t else best) none

def holds (caseless negated : Bool) (members : List Member) (c : Char) : Bool :=
  let found (c : Char) : Bool := members.any (Member.holds c)
  (if caseless then found c.toLower || found c.toUpper || found c else found c) ≠ negated

/-- The places to which an expression leads from a place. -/
def ends (caseless : Bool) : Nat → Regex → Spot → List Spot
  | 0, _, _ => []
  | fuel + 1, r, s =>
    match r with
    | .empty => [s]
    | .lineStart => if s.before.isEmpty then [s] else []
    | .lineEnd => if s.after.isEmpty then [s] else []
    | .any => if s.after.isEmpty then [] else [s.skip 1]
    | .among negated members =>
      match s.after with
      | c :: _ => if holds caseless negated members c then [s.skip 1] else []
      | [] => []
    | .sequence first second => (ends caseless fuel first s).flatMap (ends caseless fuel second)
    | .either first second => ends caseless fuel first s ++ ends caseless fuel second s
    | .group number body =>
      (ends caseless fuel body s).map fun t =>
        let matched := s.after.take (s.after.length - t.after.length)
        { t with groups := (number, matched) :: t.groups.filter (·.1 ≠ number) }
    | .again number =>
      let text := ((s.groups.find? (·.1 = number)).map (·.2)).getD []
      if text.isPrefixOf s.after then [s.skip text.length] else []
    | .repetition body least most =>
      let more := if most = some 0 then [] else
        ((ends caseless fuel body s).filter fun t => t.after.length < s.after.length).flatMap
          (ends caseless fuel (.repetition body (least - 1) (most.map (· - 1))))
      if least = 0 then more ++ [s]
      else if more.isEmpty then
        -- a round that matches nothing counts as all rounds
        (ends caseless fuel body s).filter fun t => t.after.length = s.after.length
      else more

def longest (caseless : Bool) (r : Regex) (s : Spot) : Option Spot :=
  Spot.longest (ends caseless 100000 r s)

/-- The place where the first match begins, and where it ends. -/
def search (caseless : Bool) (r : Regex) : Nat → Spot → Option (Spot × Spot)
  | 0, _ => none
  | fuel + 1, s =>
    match longest caseless r s with
    | some t => some (s, t)
    | none => if s.after.isEmpty then none else search caseless r fuel (s.skip 1)

def find (caseless : Bool) (r : Regex) (text : List Char) : Option (Spot × Spot) :=
  search caseless r (text.length + 1) ⟨[], text, []⟩

end Regex

end TemporalDB.Shell
