import Std.Time.DateTime.Timestamp
import TemporalDB.Invocation

/-!
# The command

Reads the files that a request looks at, runs it on them, and writes the files that it changed.
-/

namespace TemporalDB

def configVariables : List String :=
  ["TEMPORA_WORK_DIR", "TEMPORA_TABLE_DIR", "TEMPORA_DEFINITION_NAME", "TEMPORA_KEEP_UNITS_OPEN",
    "TEMPORA_TOOLCHAIN"]

def readEnvironment : IO (List (String × String)) :=
  configVariables.filterMapM fun name => do
    return (← IO.getEnv name).map fun value => (name, value)

/-- The tree with a file of the system, if it is there. What is there and cannot be read is taken
for a directory. -/
def addFile (files : FileTree) (path : Path) : IO FileTree := do
  if path.text.isEmpty then return files
  let made := ((path.parent.map files.createDirectories).getD (.ok files)).toOption.getD files
  try
    let content ← IO.FS.readBinFile path.text
    return (made.write path content).toOption.getD files
  catch
    | .noFileOrDirectory .. => return files
    | _ => return (files.createDirectories path).toOption.getD files

/-- The tree with the files that a request looks at. What they say may lead to further ones. -/
def gather (request : Request) (environment : List (String × String)) (files : FileTree) :
    Nat → IO FileTree
  | 0 => return files
  | rounds + 1 => do
    let files ← (Invocation.inputs request environment files).foldlM addFile files
    gather request environment files rounds

def pathOf (place : List String) : String := "/" ++ String.intercalate "/" place

/-- Writes the files that differ from what they were, and removes those that are gone. -/
def store (before after : FileTree) : IO Unit := do
  for (place, node) in after.nodes.entries do
    if let .file content := node then
      if before.nodes.find? place != some node then
        IO.FS.createDirAll (pathOf place.dropLast)
        IO.FS.writeBinFile (pathOf place) content
  for (place, node) in before.nodes.entries do
    if let .file _ := node then
      if after.nodes.find? place = none then
        IO.FS.removeFile (pathOf place)

def currentInstant : IO Instant := do
  let time ← Std.Time.Timestamp.now
  let micros := time.toNanosecondsSinceUnixEpoch.val / 1000
  return (Instant.ofMicros? micros).getD Instant.last

end TemporalDB

open TemporalDB

/-- Runs the command and exits with its status. -/
def main (words : List String) : IO UInt32 := do
  let environment ← readEnvironment
  let home := (TemporalDB.Path.mk (toString (← IO.currentDir))).parts.drop 1
  let files ← match CommandLine.read words with
    | some request => gather request environment (.new home) 3
    | none => pure (.new home)
  let report := Report.ofWords words environment files (← currentInstant)
  store files report.files
  IO.print report.output
  IO.eprint report.errors
  return report.code.toUInt32
