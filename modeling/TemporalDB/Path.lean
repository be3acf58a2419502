import TemporalDB.Text.Blank

/-!
# Paths of files

A path is a text whose parts stand between slashes; one that begins with a slash is absolute. Two
paths are the same if they have the same parts: doubled slashes and a slash at the end do not
count, and a part that is a single point counts only at the beginning.
-/

namespace TemporalDB

open Text

/-- A path, as it was written. -/
structure Path where
  text : String
deriving DecidableEq

namespace Path

def isAbsolute (p : Path) : Bool := p.text.toList.head? = some '/'

/-- A name below a path. An absolute name stands for itself. -/
def join (p : Path) (name : String) : Path :=
  if (Path.mk name).isAbsolute || p.text.isEmpty then ⟨name⟩
  else if p.text.toList.getLast? = some '/' then ⟨p.text ++ name⟩
  else ⟨p.text ++ "/" ++ name⟩

def pieces (p : Path) : List String := (splitAt '/' p.text.toList).map String.ofList

def endsInSlash (p : Path) : Bool := p.text.toList.getLast? = some '/'

/-- The pieces without those that only slashes at the end make. -/
def named (p : Path) : List String := (p.pieces.reverse.dropWhile (· = "")).reverse

/-- The parts of a path. The root is the part `/`. -/
def parts (p : Path) : List String :=
  let named := p.pieces.filter fun s => s ≠ "" && s ≠ "."
  if p.isAbsolute then "/" :: named
  else if p.pieces.head? = some "." then "." :: named
  else named

def ofParts : List String → Path
  | "/" :: parts => ⟨"/" ++ String.intercalate "/" parts⟩
  | parts => ⟨String.intercalate "/" parts⟩

/-- The path without its last part, if that is not the root. -/
def parent (p : Path) : Option Path :=
  match p.parts.getLast? with
  | none | some "/" => none
  | some _ => some (ofParts p.parts.dropLast)

/-- The paths of the directories that lead to a path, the innermost first. -/
def above (p : Path) : List Path :=
  let parts := p.parts.dropLast
  (List.range parts.length).map fun n => ofParts (parts.take (parts.length - n))

/-- The last part of a path, if it names something. -/
def fileName (p : Path) : Option String :=
  p.parts.getLast?.filter fun s => s ≠ "/" && s ≠ "." && s ≠ ".."

end Path

end TemporalDB
