import TemporalDB.CommandLine
import TemporalDB.Pipeline
import TemporalDB.Setting.Format
import TemporalDB.Shell.Execution
import TemporalDB.Tags.Numbered

/-!
# Running the command

A request is run on the files: the configuration is read, the schema is compiled, the database is
opened and the query is compiled and run. A failure tells in which step it happened and what caused
it, from the outermost cause to the innermost.
-/

namespace TemporalDB

open Text

/-! ## Causes -/

def ScalarError.causes (e : ScalarError) : List String := [e.message]

def IoError.causes (e : IoError) : List String := [e.message]

def StorageError.causes (e : StorageError) : List String :=
  e.message :: match e with
    | unreadable _ cause => cause.causes
    | _ => []

def ExecError.causes (e : ExecError) : List String :=
  match e with
  | storage cause => cause.causes
  | param _ cause => e.message :: cause.causes
  | _ => [e.message]

def PlanError.causes (e : PlanError) : List String :=
  e.message :: match e with
    | literal _ cause => cause.causes
    | _ => []

def BuildError.causes (e : BuildError) : List String :=
  e.message :: match e with
    | file _ cause => cause.causes
    | rejected cause => [cause.message]
    | toolchain .. => []

def RunError.causes (e : RunError) : List String :=
  match e with
  | load cause => [cause.message]
  | build cause => cause.causes
  | execution cause => e.message :: cause.causes

def SchemaError.causes (e : SchemaError) : List String :=
  e.message :: match e with
    | compile cause => cause.causes
    | parse _ => []

def QueryError.causes (e : QueryError) : List String :=
  e.message :: match e with
    | plan cause => cause.causes
    | compile cause => cause.causes
    | parse _ => []

inductive Failure where
  | configUnreadable
  | configMismatch
  | build (source : Path) (cause : BuildError)
  | schemaUnreadable (path : Path) (cause : IoError)
  | schema (cause : SchemaError)
  | database (cause : RunError)
  | queryCompilation (cause : QueryError)
  | query (cause : RunError)
  | release (cause : LoadError)

namespace Failure

def context : Failure → String
  | configUnreadable => "failed to read config file"
  | configMismatch => "failed to deserialise PipelineConfig"
  | build source _ => "failed to build " ++ source.text
  | schemaUnreadable path _ => "failed to read schema " ++ path.text
  | schema _ => "failed to compile schema"
  | database _ => "failed to open database"
  | queryCompilation _ => "failed to compile query"
  | query _ => "query failed"
  | release _ => "failed to release units"

def causes : Failure → List String
  | configUnreadable | configMismatch => []
  | build _ cause => cause.causes
  | schemaUnreadable _ cause => cause.causes
  | schema cause => cause.causes
  | database cause => cause.causes
  | queryCompilation cause => cause.causes
  | query cause => cause.causes
  | release cause => [cause.message]

/-- A text with its further lines moved in by some blanks. -/
def indented (width : Nat) (s : String) : List Char :=
  ('\n' :: List.replicate width ' ').intercalate (splitAt '\n' s.toList)

def numbered (n : Nat) : List String → List Char
  | [] => []
  | s :: rest =>
    let number := Nat.toDigits 10 n
    List.replicate (5 - number.length) ' ' ++ number ++ ": ".toList ++ indented 7 s ++ '\n' ::
      numbered (n + 1) rest

/-- The text of a failure. Two or more causes are numbered. -/
def message (e : Failure) : String :=
  "Error: " ++ e.context ++ "\n" ++
    match e.causes with
    | [] => ""
    | [s] => "\nCaused by:\n" ++ String.ofList ("    ".toList ++ indented 4 s) ++ "\n"
    | causes => "\nCaused by:\n" ++ String.ofList (numbered 0 causes)

end Failure

namespace Invocation

/-! ## Configuration -/

def fileSettings (files : FileTree) (path : Path) : Except Failure (List (String × Setting)) :=
  match Setting.file? files path with
  | none => .ok []
  | some (format, file) =>
    match files.readText file with
    | .error _ => .ok []
    | .ok content =>
      match format.read content with
      | some entries => .ok (Setting.layer [] entries)
      | none => .error .configUnreadable

def configuration (files : FileTree) (path : Path) (environment : List (String × String)) :
    Except Failure Configuration := do
  let settings := Setting.layer (← fileSettings files path) (Setting.ofEnvironment environment)
  match Setting.toConfiguration settings with
  | some c => .ok c
  | none => .error .configMismatch

/-- The configuration of a query. The directories of the command line go before all others. -/
def queryConfiguration (files : FileTree) (path : Path) (q : QueryRequest)
    (environment : List (String × String)) : Except Failure Configuration := do
  let c ← configuration files path environment
  .ok { c with
    workDir := q.workDir.getD c.workDir
    tableDir := q.tableDir.getD c.tableDir }

/-! ## Steps -/

def runSteps (p : Pipeline) (schema : String) (q : QueryRequest) (now : Instant) :
    Except Failure QueryOutput × Pipeline :=
  match p.compileSchema schema with
  | (.error e, p) => (.error (.schema e), p)
  | (.ok definition, p) =>
    match p.openDatabase definition now with
    | (.error e, p) => (.error (.database e), p)
    | (.ok db, p) =>
      match p.compileQuery q.sql definition with
      | (.error e, p) => (.error (.queryCompilation e), p)
      | (.ok artifact, p) =>
        let (output, _, p) := p.runQuery artifact db q.params q.explain now
        (output.mapError .query, p)

/-- Runs a query and closes all units. That the query fails counts more than that a unit is still in
use. -/
def runQuery (p : Pipeline) (schema : String) (q : QueryRequest) (now : Instant) :
    Except Failure String × FileTree :=
  let (output, p) := runSteps p schema q now
  let (closed, p) := p.shutdown
  (do
    let o ← output
    closed.mapError .release
    .ok o.display, p.files)

def helpText : String :=
  "Bitemporal query compiler and runner\n\nUsage: tempora [OPTIONS] <COMMAND>\n\nCommands:\n" ++
  "  query       Compile a schema and run one query against it\n" ++
  "  build-unit  Assemble a listing into a unit\n"

def versionText : String := "tempora-cli 0.1.0\n"

def run (request : Request) (environment : List (String × String)) (files : FileTree)
    (now : Instant) : Except Failure String × FileTree :=
  match request with
  | .help => (.ok helpText, files)
  | .version => (.ok versionText, files)
  | .buildUnit source artifact =>
    let (result, files) := Compiler.inProcess files source artifact
    ((result.map fun _ => "").mapError (.build source), files)
  | .query config q =>
    match queryConfiguration files config q environment with
    | .error e => (.error e, files)
    | .ok c =>
      match files.readText q.schema with
      | .error e => (.error (.schemaUnreadable q.schema e), files)
      | .ok schema => runQuery (.new c (.ofToolchain c.toolchain) files) schema q now

/-! ## Files that are looked at -/

/-- The files of a configuration that its steps may read: listings and units by their names, and
the table files of a schema. -/
def filesOf (c : Configuration) (q : QueryRequest) (schema : Option Schema) : List Path :=
  let names := [c.definitionName, (Fingerprint.of q.sql).artifactName]
  names.flatMap (fun name => [c.sourcePath name, c.artifactPath name]) ++
    schema.elim [] fun s => s.relations.map fun r => Database.filePath c.tableDir r.name

/-- The files that a request may read, as far as the files that are known tell. -/
def inputs (request : Request) (environment : List (String × String)) (files : FileTree) :
    List Path :=
  match request with
  | .help | .version => []
  | .buildUnit source artifact => [source, artifact]
  | .query config q =>
    config :: q.schema :: (Setting.candidates config).map (·.2) ++
      match queryConfiguration files config q environment with
      | .error _ => []
      | .ok c =>
        filesOf c q ((files.readText q.schema).toOption.bind fun s => (Sql.parseSchema s).toOption)

end Invocation

/-- What the command leaves: its status, what it wrote, and the files. -/
structure Report where
  code : Nat
  output : String
  errors : String
  files : FileTree

def Report.ofWords (words : List String) (environment : List (String × String))
    (files : FileTree) (now : Instant) : Report :=
  match CommandLine.read words with
  | none => ⟨2, "", Invocation.helpText, files⟩
  | some request =>
    match Invocation.run request environment files now with
    | (.ok output, files) => ⟨0, output, "", files⟩
    | (.error e, files) => ⟨1, "", e.message, files⟩

end TemporalDB
