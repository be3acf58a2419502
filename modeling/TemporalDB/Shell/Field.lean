import TemporalDB.FileTree
import TemporalDB.Shell.Pattern

/-!
# Fields

What a word stands for is split into fields at separators, but only where its text comes from
parameters, commands or arithmetic outside of quotes. A field in which stars and the like are not
quoted stands for the names of the files that match it, if there are any.
-/

namespace TemporalDB.Shell

open Text

/-- A character of what a word stands for, or a place in it. -/
inductive Cell where
  | char (c : Char) (quoted : Bool)
  /-- A quotation mark. -/
  | mark
  /-- The place between two parameters. -/
  | gap
deriving DecidableEq

/-- Where fields end in a stretch of cells. -/
inductive Splitting where
  | nowhere
  | atSeparators
  | atGaps
deriving DecidableEq

structure Stretch where
  splitting : Splitting
  cells : List Cell

/-- Where the text in what a word stands for is left alone. -/
def Stretch.fixed (cells : List Cell) : Stretch := ⟨.nowhere, cells⟩

def charsOf (cells : List Cell) : List (Char × Bool) :=
  cells.filterMap fun
    | .char c quoted => some (c, quoted)
    | _ => none

def textOf (cells : List Cell) : List Char := (charsOf cells).map (·.1)

def wholeText (w : List Stretch) : String := String.ofList (w.flatMap fun s => textOf s.cells)

/-! ## Splitting -/

structure Splitter where
  /-- The fields that have ended, the last one first. -/
  ended : List (List Cell)
  /-- The cells of the open field, the last one first. -/
  field : List Cell
  /-- Whether the last cell was a blank separator that ended a field. -/
  afterBlank : Bool
  /-- Whether fields end at gaps only, in the stretch and in the one before. -/
  gapsOnly : Bool
  gapsOnlyBefore : Bool
  /-- How many more fields may end, if not any number. -/
  left : Option Nat
  /-- How many cells of the open field stay, if not all. -/
  kept : Option Nat

namespace Splitter

def start (left : Option Nat) : Splitter := ⟨[], [], false, false, false, left, none⟩

def separates (s : Splitter) (separators : List Char) (cell : Cell) : Bool × Bool :=
  match cell with
  | .gap => (true, true)
  | .mark => (false, false)
  | .char c _ =>
    let found := !s.gapsOnly && separators.contains c
    (found, found && (c = ' ' || c = '\t' || c = '\n'))

/-- Ends the open field, unless no more may end. -/
def close (s : Splitter) (cell : Cell) : Splitter :=
  match s.left with
  | some 1 =>
    { s with left := some 0, kept := some s.field.length, field := cell :: s.field }
  | left =>
    { s with left := left.map (· - 1), ended := s.field.reverse :: s.ended, field := [] }

def push (s : Splitter) (separators : List Char) (cell : Cell) : Splitter :=
  let (isSeparator, isBlank) := s.separates separators cell
  if s.left = some 0 then
    if isBlank then
      { s with kept := some (s.kept.getD s.field.length), field := cell :: s.field }
    else
      let kept := if isSeparator && s.afterBlank then s.kept else none
      { s with kept, afterBlank := false, field := cell :: s.field }
  else if s.afterBlank then
    if isBlank then { s with field := [] }
    else { s with field := if isSeparator then [] else [cell], afterBlank := false }
  else if isSeparator then
    let afterBlank := if s.gapsOnly || s.gapsOnlyBefore then false else isBlank
    if s.field.isEmpty && afterBlank then { s with afterBlank := false }
    else { s with afterBlank }.close cell
  else { s with field := cell :: s.field }

def stretch (separators : List Char) (s : Splitter) (t : Stretch) : Splitter :=
  match t.splitting with
  | .nowhere => { s with field := t.cells.reverse ++ s.field }
  | splitting =>
    let s := { s with gapsOnlyBefore := s.gapsOnly, gapsOnly := splitting = .atGaps,
                      afterBlank := false }
    t.cells.foldl (·.push separators ·) s

def fields (s : Splitter) : List (List Cell) :=
  let last := match s.kept with
    | some n => s.field.reverse.take n
    | none => s.field.reverse
  if last.isEmpty && !s.gapsOnly then s.ended.reverse else (last :: s.ended).reverse

end Splitter

/-- The fields of what a word stands for; at most a number of them, of which the last takes what
is left. -/
def splitFields (separators : String) (most : Option Nat) (w : List Stretch) : List (List Cell) :=
  (w.foldl (Splitter.stretch separators.toList) (Splitter.start most)).fields

/-! ## Names of files -/

def namesIn (t : FileTree) (directory : Path) : List String :=
  match (t.place directory).toOption with
  | none => []
  | some place =>
    let below := t.nodes.keys.filterMap fun other =>
      if place.isPrefixOf other then
        match other.drop place.length with
        | [name] => some (octets name)
        | _ => none
      else none
    if (t.node? place) matches some .directory then "." :: ".." :: below else []

/-- Whether a name matches; a point at its front must be there in the pattern. -/
def fits (pattern : Pattern) (name : String) : Bool :=
  let visible := name.toList.head? ≠ some '.' || pattern.head? = some (.only '.')
  visible && pattern.matchesAll name.toList

def behind (front : String) (s : String) : String := front ++ s

/-- The paths behind a path that match pieces between slashes. -/
def matching (t : FileTree) (front : String) : List (List (Char × Bool)) → List String
  | [] => []
  | piece :: pieces =>
    let pattern := Pattern.read piece
    let onward (name : String) : List String :=
      if pieces.isEmpty then [front ++ name] else matching t (front ++ name ++ "/") pieces
    if pattern.isLiteral then
      (onward (String.ofList (piece.map (·.1)))).filter fun s => t.exists ⟨ofOctets s⟩
    else
      let directory := if front.isEmpty then "." else front
      ((namesIn t ⟨ofOctets directory⟩).filter (fits pattern)).flatMap onward

def betweenSlashes (s : List (Char × Bool)) : List (List (Char × Bool)) :=
  s.foldr (fun c pieces =>
    if c.1 = '/' then [] :: pieces
    else match pieces with
      | [] => [[c]]
      | piece :: pieces => (c :: piece) :: pieces) [[]]

/-- Whether one text stands before another in the order of their bytes. -/
def before (a b : String) : Bool := !(decide (b.toList < a.toList))

/-- The texts that a field stands for: itself, or the names of files that match it. -/
def filesOf (t : FileTree) (field : List Cell) : List String :=
  let chars := charsOf field
  let itself := String.ofList (chars.map (·.1))
  if chars.any fun c => !c.2 && "*?[".toList.contains c.1 then
    match (matching t "" (betweenSlashes chars)).mergeSort before with
    | [] => [itself]
    | names => names
  else [itself]

end TemporalDB.Shell
