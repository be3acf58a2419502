import TemporalDB.Path

/-!
# Configuration

Where listings, units and table files lie, and how a listing becomes a unit.
-/

namespace TemporalDB

inductive Toolchain where
  /-- The listing is assembled. -/
  | inProcess
  /-- A program does it. `{source}` and `{artifact}` in its arguments stand for the paths of the
  listing and of the unit. -/
  | command (program : String) (args : List String)
deriving DecidableEq

/-- What a pipeline needs to know about its surroundings. -/
structure Configuration where
  /-- The directory of listings and units. -/
  workDir : Path
  /-- The directory of table files. -/
  tableDir : Path
  /-- The name under which a schema is built. It is always built anew. -/
  definitionName : String
  /-- Whether units stay open between uses. -/
  keepUnitsOpen : Bool
  toolchain : Toolchain
deriving DecidableEq

namespace Configuration

def default : Configuration := ⟨⟨"tmp/"⟩, ⟨"../tbl/"⟩, "db", false, .inProcess⟩

def sourcePath (c : Configuration) (name : String) : Path := c.workDir.join (name ++ ".src")

def artifactPath (c : Configuration) (name : String) : Path := c.workDir.join (name ++ ".unit")

end Configuration

end TemporalDB
