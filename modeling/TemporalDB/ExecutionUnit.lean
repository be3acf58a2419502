import TemporalDB.Compiler
import TemporalDB.Execution

/-!
# Loaded units

A loaded unit can be called through the entry points that were asked for when it was loaded, and
through no others.
-/

namespace TemporalDB

open Text

inductive OpenFault where
  | unreadable (cause : IoError)
  | artifact (cause : ArtifactError)
deriving DecidableEq

def OpenFault.message : OpenFault → String
  | unreadable cause => cause.message
  | artifact cause => cause.message

inductive LoadError where
  | cannotOpen (path : Path) (fault : OpenFault)
  | symbolMissing (symbol : String) (path : Path)
  /-- The unit is still in use. -/
  | inUse (path : Path) (outstanding : Nat)
deriving DecidableEq

def LoadError.message : LoadError → String
  | cannotOpen path fault => "cannot open unit " ++ path.text ++ ": " ++ fault.message
  | symbolMissing symbol path => "unit " ++ path.text ++ " does not export " ++ symbol
  | inUse path outstanding =>
    "unit " ++ path.text ++ " still has " ++ showNat outstanding ++ " live handle(s)"

/-- Whether the unit itself is bad, so that building it again may help. -/
def LoadError.isCorruption : LoadError → Bool
  | cannotOpen .. | symbolMissing .. => true
  | inUse .. => false

inductive RunError where
  | load (cause : LoadError)
  | build (cause : BuildError)
  | execution (cause : ExecError)
deriving DecidableEq

def RunError.message : RunError → String
  | load cause => cause.message
  | build cause => cause.message
  | execution cause => "execution failed: " ++ cause.message

/-- Whether a unit can be called through an entry point: it is exported, and the program has it. -/
def CompiledUnit.provides (u : CompiledUnit) (symbol : String) : Bool :=
  let backed := match u.program with
    | .definition _ => symbol = EntryPoint.makeDatabase || symbol = EntryPoint.getSize
    | .query _ => symbol = EntryPoint.query
  backed && u.hasExport symbol

structure ExecutionUnit where
  path : Path
  /-- Tells apart what was read at different times. -/
  serial : Nat
  unit : CompiledUnit
  /-- The entry points that were asked for. -/
  symbols : List String

namespace ExecutionUnit

def entry (u : ExecutionUnit) (symbol : String) : Except RunError Program :=
  if u.symbols.contains symbol then .ok u.unit.program
  else .error (.load (.symbolMissing symbol u.path))

def makeDatabase (u : ExecutionUnit) (files : FileTree) (root : Path) (now : Instant) :
    Except RunError Database := do
  match ← u.entry EntryPoint.makeDatabase with
  | .definition schema =>
    (Database.open files schema root now).mapError fun e => .execution (.storage e)
  | .query _ => .error (.load (.symbolMissing EntryPoint.makeDatabase u.path))

/-- The number of stored versions of a table. -/
def getSize (u : ExecutionUnit) (db : Database) (table : String) : Except RunError Nat := do
  match ← u.entry EntryPoint.getSize with
  | .definition _ => (db.sizeOf table).mapError fun e => .execution (.storage e)
  | .query _ => .error (.load (.symbolMissing EntryPoint.getSize u.path))

def runQuery (u : ExecutionUnit) (db : Database) (params : List String) (explain : Bool)
    (now : Instant) : Except RunError QueryOutput × Database :=
  match u.entry EntryPoint.query with
  | .error e => (.error e, db)
  | .ok (.query q) =>
    let (output, db) := Execution.runQuery q db params explain now
    (output.mapError .execution, db)
  | .ok (.definition _) => (.error (.load (.symbolMissing EntryPoint.query u.path)), db)

end ExecutionUnit

end TemporalDB
