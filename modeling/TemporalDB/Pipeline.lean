import TemporalDB.BuildCache
import TemporalDB.Fingerprint
import TemporalDB.Loader
import TemporalDB.Listing.Rendering
import TemporalDB.Sql.QueryGrammar
import TemporalDB.Sql.SchemaGrammar

/-!
# From texts to results

The text of a schema is built to a definition, from which a database is opened. The text of a query
is built to a unit, once for every text, and the unit is run on a database. A unit that cannot be
loaded is built again once from its stored listing.
-/

namespace TemporalDB

open Text

inductive SchemaError where
  | parse (cause : Sql.SyntaxError)
  | compile (cause : BuildError)

def SchemaError.message : SchemaError → String
  | parse cause => "schema line " ++ showNat cause.line ++ ": " ++ cause.fault.message
  | compile cause => "definition failed to build: " ++ cause.message

inductive QueryError where
  | parse (cause : Sql.SyntaxError)
  | plan (cause : PlanError)
  | compile (cause : BuildError)

def QueryError.message : QueryError → String
  | parse cause => "query line " ++ showNat cause.line ++ ": " ++ cause.fault.message
  | plan cause => "query does not fit the schema: " ++ cause.message
  | compile cause => "query failed to build: " ++ cause.message

structure Definition where
  artifact : Path
  schema : Schema
  status : BuildStatus

structure QueryArtifact where
  fingerprint : Fingerprint
  name : String
  artifact : Path
  status : BuildStatus

structure Pipeline where
  cache : BuildCache
  loader : Loader

namespace Pipeline

def new (config : Configuration) (compiler : Compiler) (files : FileTree) : Pipeline :=
  ⟨⟨config, compiler, files, 0⟩, .new config.keepUnitsOpen⟩

/-- A pipeline that begins anew on the same files. Loaded units that are in use stay so. -/
def restart (p : Pipeline) : Pipeline :=
  { p with
    cache := { p.cache with builds := 0 }
    loader := { p.loader with kept := .empty } }

def config (p : Pipeline) : Configuration := p.cache.config

def files (p : Pipeline) : FileTree := p.cache.files

variable [Tags]

/-- Builds the definition of a schema. It is built even if it is there. -/
def compileSchema (p : Pipeline) (text : String) : Except SchemaError Definition × Pipeline :=
  match Sql.parseSchema text with
  | .error e => (.error (.parse e), p)
  | .ok schema =>
    let name := p.config.definitionName
    match p.cache.build (Listing.ofSchema schema).text name with
    | (.error e, cache) => (.error (.compile e), { p with cache })
    | (.ok status, cache) =>
      let artifact := p.config.artifactPath name
      (.ok ⟨artifact, schema, status⟩, ⟨cache, p.loader.invalidate artifact⟩)

def openDatabase (p : Pipeline) (d : Definition) (now : Instant) :
    Except RunError Database × Pipeline :=
  match p.loader.load p.files d.artifact [EntryPoint.makeDatabase, EntryPoint.getSize] with
  | (.error e, loader) => (.error (.load e), { p with loader })
  | (.ok u, loader) =>
    (u.makeDatabase p.files p.config.tableDir now, { p with loader := loader.release u })

/-- The number of stored versions of a table, through a definition. -/
def getSize (p : Pipeline) (d : Definition) (db : Database) (table : String) :
    Except RunError Nat × Pipeline :=
  match p.loader.load p.files d.artifact [EntryPoint.getSize] with
  | (.error e, loader) => (.error (.load e), { p with loader })
  | (.ok u, loader) => (u.getSize db table, { p with loader := loader.release u })

/-- Builds the unit of a query, if there is none for its text. A text whose unit is there is not
even parsed. -/
def compileQuery (p : Pipeline) (text : String) (d : Definition) :
    Except QueryError QueryArtifact × Pipeline :=
  let fingerprint := Fingerprint.of text
  let name := fingerprint.artifactName
  match p.cache.lookup name with
  | some artifact => (.ok ⟨fingerprint, name, artifact, .cached⟩, p)
  | none =>
    match Sql.parseQuery text with
    | .error e => (.error (.parse e), p)
    | .ok query =>
      match Listing.ofQuery query d.schema with
      | .error e => (.error (.plan e), p)
      | .ok source =>
        match p.cache.build source.text name with
        | (.error e, cache) => (.error (.compile e), { p with cache })
        | (.ok status, cache) =>
          let artifact := p.config.artifactPath name
          let loader := if status = .cached then p.loader else p.loader.invalidate artifact
          (.ok ⟨fingerprint, name, artifact, status⟩, ⟨cache, loader⟩)

/-- Loads the unit of a query. One that cannot be loaded is removed, built again and loaded. -/
def loadQuery (p : Pipeline) (q : QueryArtifact) : Except RunError ExecutionUnit × Pipeline :=
  let attempt (p : Pipeline) : Except LoadError ExecutionUnit × Pipeline :=
    let (u, loader) := p.loader.load p.files q.artifact [EntryPoint.query]
    (u, { p with loader })
  match attempt p with
  | (.ok u, p) => (.ok u, p)
  | (.error e, p) =>
    if !e.isCorruption then (.error (.load e), p)
    else
      let p := { p with loader := p.loader.invalidate q.artifact }
      match p.cache.evict q.name with
      | (.error e, cache) => (.error (.build e), { p with cache })
      | (.ok (), cache) =>
        match cache.rebuild q.name with
        | (.error e, cache) => (.error (.build e), { p with cache })
        | (.ok _, cache) =>
          let (u, p) := attempt { p with cache }
          (u.mapError .load, p)

def runQuery (p : Pipeline) (q : QueryArtifact) (db : Database) (params : List String)
    (explain : Bool) (now : Instant) : Except RunError QueryOutput × Database × Pipeline :=
  match p.loadQuery q with
  | (.error e, p) => (.error e, db, p)
  | (.ok u, p) =>
    let (output, db) := u.runQuery db params explain now
    (output, db, { p with loader := p.loader.release u })

def shutdown (p : Pipeline) : Except LoadError Unit × Pipeline :=
  let (result, loader) := p.loader.shutdown
  (result, { p with loader })

end Pipeline

end TemporalDB
