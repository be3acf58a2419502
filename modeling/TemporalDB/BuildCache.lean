import TemporalDB.Compiler
import TemporalDB.Tags

/-!
# The build cache

Every name owns two files of the work directory: its listing and its unit. Both are written under a
name that nothing else has and then moved to their place, so that a file in its place is complete.
A unit that is there is not built again, except that of the definition.
-/

namespace TemporalDB

inductive BuildStatus where
  /-- There was a unit already. -/
  | cached
  /-- The compiler ran. -/
  | compiled
deriving DecidableEq

structure BuildCache where
  config : Configuration
  compiler : Compiler
  files : FileTree
  /-- How often the compiler ran, failures included. -/
  builds : Nat

namespace BuildCache

variable [Tags]

/-- Writes a file under a temporary name and moves it to its place. -/
def publish (files : FileTree) (path : Path) (content : ByteArray) :
    Except BuildError Unit × FileTree :=
  let temporary := files.temporary (path.parent.getD ⟨"."⟩) (path.fileName.getD "")
  match files.write temporary content with
  | .error e => (.error (.file temporary e), files.discard temporary)
  | .ok written =>
    match written.rename temporary path with
    | .error e => (.error (.file path e), written)
    | .ok moved => (.ok (), moved)

def lookup (c : BuildCache) (name : String) : Option Path :=
  let path := c.config.artifactPath name
  if c.files.exists path then some path else none

def alwaysRebuilds (c : BuildCache) (name : String) : Bool := name = c.config.definitionName

/-- Compiles the listing of a name and moves the unit to its place. After a failure there is no
unit. -/
def compile (c : BuildCache) (name : String) : Except BuildError BuildStatus × BuildCache :=
  let artifact := c.config.artifactPath name
  let temporary := c.files.temporary c.config.workDir name
  let (result, files) := c.compiler c.files (c.config.sourcePath name) temporary
  let c := { c with files, builds := c.builds + 1 }
  let failed (e : BuildError) : Except BuildError BuildStatus × BuildCache :=
    (.error e, { c with files := (c.files.discard temporary).discard artifact })
  match result with
  | .error e => failed e
  | .ok () =>
    match c.files.rename temporary artifact with
    | .error e => failed (.file artifact e)
    | .ok files => (.ok .compiled, { c with files })

/-- Stores a listing, if one is given, and compiles what is stored. -/
def compileStored (c : BuildCache) (source : Option String) (name : String) :
    Except BuildError BuildStatus × BuildCache :=
  match c.files.pave c.config.workDir with
  | (.error e, files) => (.error (.file c.config.workDir e), { c with files })
  | (.ok (), files) =>
    match source with
    | none => { c with files }.compile name
    | some source =>
      match publish files (c.config.sourcePath name) source.toUTF8 with
      | (.error e, files) => (.error e, { c with files })
      | (.ok (), files) => { c with files }.compile name

/-- Builds a listing under a name, unless its unit is there already. -/
def build (c : BuildCache) (source name : String) : Except BuildError BuildStatus × BuildCache :=
  if !c.alwaysRebuilds name && (c.lookup name).isSome then (.ok .cached, c)
  else c.compileStored (some source) name

def rebuild (c : BuildCache) (name : String) : Except BuildError BuildStatus × BuildCache :=
  c.compileStored none name

/-- Removes the unit of a name. Its listing stays. -/
def evict (c : BuildCache) (name : String) : Except BuildError Unit × BuildCache :=
  let artifact := c.config.artifactPath name
  match c.files.remove artifact with
  | .ok files => (.ok (), { c with files })
  | .error .notFound => (.ok (), c)
  | .error e => (.error (.file artifact e), c)

end BuildCache

end TemporalDB
