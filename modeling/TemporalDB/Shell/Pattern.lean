import TemporalDB.Shell.Syntax

/-!
# Patterns

A pattern is a text in which a star stands for any characters, a question mark for one, and
brackets for one of several; a character that is quoted stands for itself. `Pattern.matchesAll`
tells whether a whole text matches; trimming removes what matches at an end.
-/

namespace TemporalDB.Shell

inductive Member where
  | range (first last : Char)
  | named (name : String)
deriving DecidableEq

namespace Member

def inClass (name : String) (c : Char) : Bool :=
  let punctuation := c.toNat < 0x7F && 0x20 < c.toNat && !c.isAlphanum
  match name with
  | "alpha" => c.isAlpha
  | "digit" => c.isDigit
  | "alnum" => c.isAlphanum
  | "upper" => c.isUpper
  | "lower" => c.isLower
  | "space" => c = ' ' || (0x9 ≤ c.toNat && c.toNat ≤ 0xD)
  | "blank" => c = ' ' || c = '\t'
  | "punct" => punctuation
  | "graph" => punctuation || c.isAlphanum
  | "print" => punctuation || c.isAlphanum || c = ' '
  | "cntrl" => c.toNat < 0x20 || c.toNat = 0x7F
  | "xdigit" => c.isDigit || "abcdefABCDEF".toList.contains c
  | _ => false

def classes : List String :=
  ["alpha", "digit", "alnum", "upper", "lower", "space", "blank", "punct", "graph", "print",
    "cntrl", "xdigit"]

def holds (c : Char) : Member → Bool
  | .range first last => first ≤ c && c ≤ last
  | .named name => inClass name c

end Member

inductive Glyph where
  | only (c : Char)
  | one
  | any
  | among (negated : Bool) (members : List Member)
deriving DecidableEq

abbrev Pattern := List Glyph

namespace Pattern

def readClass (s : List (Char × Bool)) : Option (String × List (Char × Bool)) :=
  match s with
  | ('[', false) :: (':', false) :: rest => do
    let name := String.ofList ((rest.takeWhile fun c => c.1.isAlpha).map (·.1))
    match rest.drop name.length with
    | (':', false) :: (']', false) :: rest =>
      if Member.classes.contains name then some (name, rest) else none
    | _ => none
  | _ => none

def readMembers : Nat → List (Char × Bool) → Option (List Member × List (Char × Bool))
  | 0, _ | _, [] => none
  | fuel + 1, (c, quoted) :: rest =>
    let (member, rest) := match readClass ((c, quoted) :: rest) with
      | some (name, rest) => (.named name, rest)
      | none =>
        match rest with
        | ('-', false) :: (d, quotedToo) :: after =>
          if d = ']' && !quotedToo then (Member.range c c, rest) else (.range c d, after)
        | _ => (.range c c, rest)
    match rest with
    | (']', false) :: rest => some ([member], rest)
    | _ => (readMembers fuel rest).map fun (members, rest) => (member :: members, rest)

def unescaped : List (Char × Bool) → List (Char × Bool)
  | ('\\', false) :: (c, _) :: rest => (c, true) :: unescaped rest
  | c :: rest => c :: unescaped rest
  | [] => []

/-- The elements of a pattern, given as characters of which some are quoted. -/
def readGlyphs : Nat → List (Char × Bool) → Pattern
  | 0, _ | _, [] => []
  | fuel + 1, (c, quoted) :: rest =>
    if quoted then .only c :: readGlyphs fuel rest
    else match c with
      | '*' => .any :: readGlyphs fuel rest
      | '?' => .one :: readGlyphs fuel rest
      | '[' =>
        let (negated, members) := match rest with
          | ('!', false) :: after => (true, after)
          | _ => (false, rest)
        match readMembers rest.length members with
        | some (members, rest) => .among negated members :: readGlyphs fuel rest
        | none => .only c :: readGlyphs fuel rest
      | _ => .only c :: readGlyphs fuel rest

def read (s : List (Char × Bool)) : Pattern :=
  let s := unescaped s
  readGlyphs s.length s

def matchesAll : Pattern → List Char → Bool
  | [], s => s.isEmpty
  | .any :: p, s => (List.range (s.length + 1)).any fun n => matchesAll p (s.drop n)
  | .one :: p, s =>
    match s with
    | [] => false
    | _ :: s => matchesAll p s
  | .only c :: p, s =>
    match s with
    | [] => false
    | d :: s => c = d && matchesAll p s
  | .among negated members :: p, s =>
    match s with
    | [] => false
    | d :: s => (members.any (Member.holds d)) ≠ negated && matchesAll p s

def isLiteral (p : Pattern) : Bool :=
  p.all fun
    | .only _ => true
    | _ => false

end Pattern

/-- A text without what matches a pattern at an end of it. -/
def Trim.apply (t : Trim) (p : Pattern) (s : List Char) : List Char :=
  let cuts := List.range (s.length + 1)
  let without (cut : Option Nat) (side : Nat → List Char) : List Char := (cut.map side).getD s
  let atFront (n : Nat) : Bool := p.matchesAll (s.take n)
  let atBack (n : Nat) : Bool := p.matchesAll (s.drop n)
  match t with
  | .shortestPrefix => without (cuts.find? atFront) s.drop
  | .longestPrefix => without (cuts.reverse.find? atFront) s.drop
  | .shortestSuffix => without (cuts.reverse.find? atBack) s.take
  | .longestSuffix => without (cuts.find? atBack) s.take

end TemporalDB.Shell
