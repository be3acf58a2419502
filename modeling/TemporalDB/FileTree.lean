import TemporalDB.OrderedMap
import TemporalDB.Path
import TemporalDB.Text.Number

/-!
# Trees of files

A tree of directories and files with a directory in which relative paths begin. Reading and writing
go by path and fail as a file system does: a path leads through directories only, a directory has
no content, a file is made only where its directory is, and names have a greatest length.
-/

namespace TemporalDB

/-- Why an operation on files fails. -/
inductive IoError where
  | notFound
  | alreadyExists
  | isADirectory
  | notADirectory
  | permissionDenied
  | notEmpty
  /-- A directory is to be moved below itself. -/
  | invalidArgument
  | nameTooLong
  /-- A stream is closed. -/
  | badStream
  /-- A path contains the character that ends paths. -/
  | zeroInPath
  /-- A word of a command contains the character that ends words. -/
  | zeroInWord
  /-- The content of the file is not UTF-8. -/
  | notText
deriving DecidableEq

def IoError.reason : IoError → String
  | notFound => "No such file or directory"
  | alreadyExists => "File exists"
  | isADirectory => "Is a directory"
  | notADirectory => "Not a directory"
  | permissionDenied => "Permission denied"
  | notEmpty => "Directory not empty"
  | invalidArgument => "Invalid argument"
  | nameTooLong => "File name too long"
  | badStream => "Bad file descriptor"
  | zeroInPath => "file name contained an unexpected NUL byte"
  | zeroInWord => "nul byte found in provided data"
  | notText => "stream did not contain valid UTF-8"

def IoError.number? : IoError → Option Nat
  | notFound => some 2
  | alreadyExists => some 17
  | isADirectory => some 21
  | notADirectory => some 20
  | permissionDenied => some 13
  | notEmpty => some 39
  | invalidArgument => some 22
  | nameTooLong => some 36
  | badStream => some 9
  | zeroInPath | zeroInWord | notText => none

def IoError.message (e : IoError) : String :=
  match e.number? with
  | some n => e.reason ++ " (os error " ++ Text.showNat n ++ ")"
  | none => e.reason

inductive Node where
  | directory
  | file (content : ByteArray)
deriving BEq

/-- Files and directories by the names that lead to them from the root. -/
structure FileTree where
  /-- The directory in which relative paths begin. -/
  home : List String
  nodes : OrderedMap (List String) Node

namespace FileTree

/-- The tree that has nothing but a home. -/
def new (home : List String) : FileTree :=
  ⟨home, .ofList ((List.range (home.length + 1)).map fun n => (home.take n, .directory))⟩

/-- What is at a place. The root is a directory. -/
def node? (t : FileTree) (place : List String) : Option Node :=
  if place.isEmpty then some .directory else t.nodes.find? place

/-- The most bytes that a name in a directory may have. -/
def maxName : Nat := 255

/-- The bytes that a path must be shorter than. -/
def pathBound : Nat := 4096

/-- The place to which pieces of a path lead from a directory. What they lead through must be
directories; what they lead to need not be there. -/
def walk (t : FileTree) (place : List String) : List String → Except IoError (List String)
  | [] => .ok place
  | piece :: rest =>
    match t.node? place with
    | none => .error .notFound
    | some (.file _) => .error .notADirectory
    | some .directory =>
      if piece = "" || piece = "." then t.walk place rest
      else if piece = ".." then t.walk place.dropLast rest
      else if maxName < piece.utf8ByteSize then .error .nameTooLong
      else t.walk (place ++ [piece]) rest

/-- The place to which pieces of a path lead. A path that no file can have leads nowhere. -/
def walkFrom (t : FileTree) (p : Path) (pieces : List String) : Except IoError (List String) :=
  if p.text.toList.contains '\x00' then .error .zeroInPath
  else if p.text.isEmpty then .error .notFound
  else if pathBound ≤ p.text.utf8ByteSize then .error .nameTooLong
  else t.walk (if p.isAbsolute then [] else t.home) pieces

/-- The place of a path. After a slash at its end it is that of a directory. -/
def place (t : FileTree) (p : Path) : Except IoError (List String) := t.walkFrom p p.pieces

/-- The directory in which the last name of a path stands. -/
def placeAbove (t : FileTree) (p : Path) : Except IoError (List String) :=
  t.walkFrom p (p.named.dropLast ++ [""])

/-- The place of a path at which a file is to be made. A slash at its end asks for a directory. -/
def placeOfFile (t : FileTree) (p : Path) : Except IoError (List String) :=
  if p.endsInSlash then
    match t.placeAbove p with
    | .ok _ => .error .isADirectory
    | .error e => .error e
  else t.place p

def look (t : FileTree) (p : Path) : Option Node := (t.place p).toOption.bind t.node?

def isFile (t : FileTree) (p : Path) : Bool := t.look p matches some (.file _)

def isDirectory (t : FileTree) (p : Path) : Bool := t.look p matches some .directory

def read (t : FileTree) (p : Path) : Except IoError ByteArray := do
  match t.node? (← t.place p) with
  | none => .error .notFound
  | some .directory => .error .isADirectory
  | some (.file content) => .ok content

def readText (t : FileTree) (p : Path) : Except IoError String := do
  match String.fromUTF8? (← t.read p) with
  | some s => .ok s
  | none => .error .notText

def write (t : FileTree) (p : Path) (content : ByteArray) : Except IoError FileTree := do
  let place ← t.placeOfFile p
  match t.node? place with
  | some .directory => .error .isADirectory
  | _ => .ok { t with nodes := t.nodes.insert place (.file content) }

def remove (t : FileTree) (p : Path) : Except IoError FileTree := do
  let place ← t.place p
  match t.node? place with
  | none => .error .notFound
  | some .directory => .error .isADirectory
  | some (.file _) => .ok { t with nodes := t.nodes.erase place }

/-- The tree without a file, or as it is if there is no file. -/
def discard (t : FileTree) (p : Path) : FileTree := (t.remove p).toOption.getD t

/-- Whether there is something below a directory. -/
def isOccupied (t : FileTree) (place : List String) : Bool :=
  t.nodes.keys.any fun other => place.isPrefixOf other && other ≠ place

/-- The tree with a directory and all that is below it at another place, where there is nothing or
an empty directory. -/
def moveDirectory (t : FileTree) (source target : List String) : Except IoError FileTree :=
  if source = target then .ok t
  else if source.isPrefixOf target then .error .invalidArgument
  else match t.node? target with
    | some (.file _) => .error .notADirectory
    | found =>
      if found.isSome && t.isOccupied target then .error .notEmpty
      else .ok { t with nodes := .ofList (t.nodes.entries.map fun (place, node) =>
        (if source.isPrefixOf place then target ++ place.drop source.length else place, node)) }

/-- The tree with a file or a directory moved to another path. A file takes the place of a file, a
directory that of an empty one. -/
def rename (t : FileTree) (source target : Path) : Except IoError FileTree := do
  let source ← t.place source
  match t.node? source with
  | none => .error .notFound
  | some .directory => t.moveDirectory source (← t.walkFrom target target.named)
  | some (.file content) =>
    let place ← t.walkFrom target target.named
    if target.endsInSlash then .error .notADirectory
    else match t.node? place with
      | some .directory => .error .isADirectory
      | _ => .ok { t with nodes := (t.nodes.erase source).insert place (.file content) }

def makeDirectory (t : FileTree) (p : Path) : Except IoError FileTree := do
  let above ← t.placeAbove p
  match p.named.getLast? with
  | none | some "." | some ".." => .error .alreadyExists
  | some name =>
    let place ← t.walk above [name]
    if (t.node? place).isSome then .error .alreadyExists
    else .ok { t with nodes := t.nodes.insert place .directory }

/-- Makes directories, each of which stands in the next one. A directory that is there already will
do. What was made before a failure stays. -/
def makeDirectories (t : FileTree) : List Path → Except IoError Unit × FileTree
  | [] => (.ok (), t)
  | p :: above =>
    let orThere (t : FileTree) (e : IoError) : Except IoError Unit × FileTree :=
      (if t.isDirectory p then .ok () else .error e, t)
    match t.makeDirectory p with
    | .ok t => (.ok (), t)
    | .error .notFound =>
      match t.makeDirectories above with
      | (.error e, t) => (.error e, t)
      | (.ok (), t) =>
        match t.makeDirectory p with
        | .ok t => (.ok (), t)
        | .error e => orThere t e
    | .error e => orThere t e

/-- Makes a directory and those that lead to it. -/
def pave (t : FileTree) (p : Path) : Except IoError Unit × FileTree :=
  if p.text.isEmpty then (.ok (), t) else t.makeDirectories (p :: p.above)

def createDirectories (t : FileTree) (p : Path) : Except IoError FileTree :=
  match t.pave p with
  | (.ok (), t) => .ok t
  | (.error e, _) => .error e

def «exists» (t : FileTree) (p : Path) : Bool := (t.look p).isSome

/-- The files below the home and their content, by their paths from there. -/
def files (t : FileTree) : List (String × ByteArray) :=
  t.nodes.entries.filterMap fun
    | (place, .file content) =>
      if t.home.isPrefixOf place then
        some (String.intercalate "/" (place.drop t.home.length), content)
      else none
    | _ => none

end FileTree

end TemporalDB
