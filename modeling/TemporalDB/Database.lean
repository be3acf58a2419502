import TemporalDB.FileTree
import TemporalDB.Table

/-!
# Databases

A database has a table for every relation of its schema, looked up by name without regard to case.
It is opened on a directory: a table begins with the rows of its file there, if there is one. A file
has a row on every line that is not blank, with a bar between fields and, if one likes, another at
the end.
-/

namespace TemporalDB

open Text

/-- What is wrong with a line of a table's file. -/
inductive RowFault where
  | fieldCount (expected found : Nat)
  | field (cause : ScalarError)
  | refused (cause : TableError)
deriving DecidableEq

def RowFault.message : RowFault → String
  | fieldCount expected found =>
    "expected " ++ showNat expected ++ " fields, found " ++ showNat found
  | field cause => cause.message
  | refused cause => cause.message

/-- Why a database cannot be opened or asked. -/
inductive StorageError where
  | unknownTable (name : String)
  | table (cause : TableError)
  /-- A table's file cannot be read. -/
  | unreadable (path : Path) (cause : IoError)
  | malformedRow (path : Path) (line : Nat) (cause : RowFault)
deriving DecidableEq

def StorageError.message : StorageError → String
  | unknownTable name => "unknown table: " ++ name
  | table cause => cause.message
  | unreadable path cause => "failed to read " ++ quoted path.text ++ ": " ++ cause.message
  | malformedRow path line cause =>
    quoted path.text ++ " line " ++ showNat line ++ ": " ++ cause.message

namespace Table

/-- A line without one bar at its end. -/
def dropBar (line : List Char) : List Char :=
  match line.reverse with
  | '|' :: rest => rest.reverse
  | _ => line

def fieldsOf (line : List Char) : List String :=
  (splitAt '|' (dropBar line)).map String.ofList

/-- The value of a field. Nothing is null where the column admits null, unless it holds text. -/
def readField (c : Column) (field : String) : Except ScalarError Value :=
  let textual := match c.type with
    | .char _ | .varchar _ => true
    | _ => false
  if field.isEmpty && !textual && !c.notNull then .ok .null else c.type.readValue field

def readRow (r : Relation) (line : List Char) : Except RowFault Row :=
  let fields := fieldsOf line
  if fields.length = r.arity then
    ((r.columns.zip fields).mapM fun (c, field) => readField c field).mapError .field
  else .error (.fieldCount r.arity fields.length)

def loadLine (now : Instant) (t : Table) (line : List Char) : Except RowFault Table := do
  (t.insert (← readRow t.relation line) now).mapError .refused

/-- The table with the rows of lines, the first of which has a given number. A fault comes with the
number of its line. -/
def loadLines (now : Instant) (t : Table) (number : Nat) :
    List (List Char) → Except (Nat × RowFault) Table
  | [] => .ok t
  | line :: rest =>
    if (trim line).isEmpty then t.loadLines now (number + 1) rest
    else match loadLine now t line with
      | .error fault => .error (number, fault)
      | .ok t => t.loadLines now (number + 1) rest

/-- The table with the rows of a file. A file that is not there has none. -/
def load (now : Instant) (files : FileTree) (path : Path) (t : Table) :
    Except StorageError Table :=
  match files.readText path with
  | .error .notFound => .ok t
  | .error cause => .error (.unreadable path cause)
  | .ok contents =>
    (t.loadLines now 1 (lines contents.toList)).mapError fun (line, fault) =>
      .malformedRow path line fault

end Table

/-- The tables of a schema, and the directory they were opened on. -/
structure Database where
  root : Path
  tables : OrderedMap String Table

namespace Database

/-- The database of a schema without rows. Of relations with one name the last counts. -/
def new (s : Schema) (root : Path) : Database :=
  ⟨root, .ofList (s.relations.map fun r => (foldCase r.name, Table.new r))⟩

def filePath (root : Path) (relation : String) : Path := root.join (relation ++ ".tbl")

def «open» (files : FileTree) (s : Schema) (root : Path) (now : Instant) :
    Except StorageError Database :=
  let db := new s root
  db.tables.entries.foldlM (fun db (name, t) => do
    let t ← t.load now files (filePath root t.relation.name)
    .ok { db with tables := db.tables.insert name t }) db

def table? (db : Database) (name : String) : Option Table := db.tables.find? (foldCase name)

def table (db : Database) (name : String) : Except StorageError Table :=
  match db.table? name with
  | some t => .ok t
  | none => .error (.unknownTable name)

def setTable (db : Database) (name : String) (t : Table) : Database :=
  { db with tables := db.tables.insert (foldCase name) t }

def sizeOf (db : Database) (name : String) : Except StorageError Nat := do
  .ok (← db.table name).physicalSize

end Database

end TemporalDB
