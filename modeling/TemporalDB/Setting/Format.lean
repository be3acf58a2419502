import TemporalDB.FileTree
import TemporalDB.Json.Reader
import TemporalDB.Setting.Ini
import TemporalDB.Setting.Ron
import TemporalDB.Setting.Yaml
import TemporalDB.Toml.Reader

/-!
# Formats of settings files

The ending of a file's name tells in which format its settings are written. A file may be named
without its ending.
-/

namespace TemporalDB.Setting

mutual

def ofToml : Toml → Setting
  | .text s => text s
  | .integer n => ofInt n
  | .real x => ofReal x
  | .flag b => ofBool b
  | .list items => list (ofTomls items)
  | .inline entries => table (ofTomlEntries entries)
  | .table _ _ entries => table (ofTomlEntries entries)
  | .tables items => list (ofTomls items)

def ofTomls : List Toml → List Setting
  | [] => []
  | t :: rest => ofToml t :: ofTomls rest

def ofTomlEntries : List (String × Toml) → List (String × Setting)
  | [] => []
  | (name, t) :: rest => (name, ofToml t) :: ofTomlEntries rest

end

/-- The setting that an integer in JSON is: beyond the range of a signed one it is rounded. -/
def ofJsonInteger (n : Int) : Setting :=
  if (Text.int64? n).isSome then ofInt n else ofReal (.ofInt n)

mutual

/-- The setting that a JSON value is. Of members with one name the last counts. -/
def ofJson : Json → Setting
  | .null | .undenoted => nothing
  | .bool b => ofBool b
  | .integer n => ofJsonInteger n
  | .real x => ofReal x
  | .string s => text s
  | .array items => list (ofJsons items)
  | .object members => table (ofMembers [] members)

def ofJsons : List Json → List Setting
  | [] => []
  | j :: rest => ofJson j :: ofJsons rest

def ofMembers (before : List (String × Setting)) : List (String × Json) → List (String × Setting)
  | [] => before
  | (name, j) :: rest => ofMembers (put name (ofJson j) before) rest

end

inductive Format where
  | toml
  | json
  | yaml
  | ini
  | ron
  | json5
deriving DecidableEq

namespace Format

def all : List Format := [toml, json, yaml, ini, ron, json5]

def endings : Format → List String
  | toml => ["toml"]
  | json => ["json"]
  | yaml => ["yaml", "yml"]
  | ini => ["ini"]
  | ron => ["ron"]
  | json5 => ["json5"]

/-- A byte order mark in front of a text does not count. -/
def dropMark (s : String) : String :=
  match s.toList with
  | '\uFEFF' :: rest => String.ofList rest
  | _ => s

def readSetting : Format → String → Option Setting
  | toml, s => (Toml.read (dropMark s)).map fun entries => table (ofTomlEntries entries)
  | json, s => (Json.read s).map ofJson
  | yaml, s => Yaml.read s
  | ini, s => Ini.read s
  | ron, s => Ron.read s
  | json5, s => Json5.read s

def read (f : Format) (s : String) : Option (List (String × Setting)) :=
  match f.readSetting s with
  | some (table entries) => some entries
  | _ => none

/-- The ending of a name: what follows its last point, which is not its first character. -/
def endingOf (name : String) : Option String :=
  let pieces := Text.splitAt '.' name.toList
  match pieces.reverse with
  | last :: before :: others =>
    if before.isEmpty && others.isEmpty then none else some (String.ofList last)
  | _ => none

def ofPath (p : Path) : Option Format := do
  let ending ← endingOf (← p.fileName)
  all.find? fun f => f.endings.contains ending

end Format

def candidates (p : Path) : List (Format × Path) :=
  if p.fileName.isNone then []
  else Format.all.flatMap fun f => f.endings.map fun ending =>
    (f, ⟨(Path.ofParts p.parts).text ++ "." ++ ending⟩)

/-- The settings file of a path: the file that is there, if its name tells its format, or else one
whose name has an ending more. -/
def file? (files : FileTree) (p : Path) : Option (Format × Path) :=
  if files.isFile p then (Format.ofPath p).map fun f => (f, p)
  else (candidates p).find? fun (_, q) => files.isFile q

end TemporalDB.Setting
