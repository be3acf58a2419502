import TemporalDB.Proofs.Assembly.Definition
import TemporalDB.Proofs.Assembly.Query
import TemporalDB.Proofs.Pipeline.Compilation
import TemporalDB.Proofs.WorkDirectory.Empty

/-!
# Answers from stored units

A unit is stored under the exact text of its query, so the schema that a text was first compiled for
decides what it answers later on. Executing a text whose unit is stored is executing it without the
unit, on the schema that the unit was compiled for.
-/

namespace TemporalDB.Pipeline

open FileTree

variable {config : Configuration} {compiled : String → Schema → Prop} {text listing : String}
  {before : FileTree} {p : Pipeline} {steps : List Step} {q : QueryArtifact} {d : Definition}
  {db : Database} {params : List String} {explain : Bool} {now : Instant} {w : List String}

section

variable [Tags]

/-- What comes of executing a text: it is compiled and its unit is run on a database. -/
def answer (p : Pipeline) (text : String) (d : Definition) (db : Database) (params : List String)
    (explain : Bool) (now : Instant) : Except (QueryError ⊕ RunError) QueryOutput × Database :=
  match p.compileQuery text d with
  | (.error e, _) => (.error (.inl e), db)
  | (.ok q, p) =>
    let (output, db, _) := p.runQuery q db params explain now
    (output.mapError .inr, db)

def outcome (p : Pipeline) (q : QueryArtifact) (db : Database) (params : List String)
    (explain : Bool) (now : Instant) : Except RunError QueryOutput × Database :=
  match (p.loadQuery q).1 with
  | .error e => (.error e, db)
  | .ok u => u.runQuery db params explain now

end

def declaring (column : String) : String := "CREATE TABLE t (" ++ column ++ " INTEGER PRIMARY KEY)"

def declared (column : String) : Schema := ⟨[⟨"t", [⟨column, .integer, true⟩], [0], false⟩]⟩

def defined (column : String) : Definition :=
  ⟨Configuration.default.artifactPath Configuration.default.definitionName, declared column, .compiled⟩

def selecting : String := "SELECT a FROM t"

def selectingOperation : Operation := .select [0] none ⟨none, []⟩

def selectingListing : String :=
  Listing.comment selecting ++
    Listing.textOf (Listing.queryHeader 0 "t" ++ Listing.ofOperation selectingOperation)

theorem assemble_selectingListing : Assembly.assemble selectingListing =
    .ok ⟨abiVersion, [EntryPoint.query], .query ⟨0, "t", .execute selectingOperation⟩⟩ := by
  have wellFormed : selectingOperation.WellFormed := by
    refine ⟨by decide, by decide, by decide, ?_, ?_⟩
    · rintro _ _ ⟨⟩
    · simp [selectingOperation, Operation.clauses, Operation.accessClauses]
  exact Assembly.assemble_execute (by decide) wellFormed (by decide)

theorem planned_declared : planned selecting (declared "a") = .ok selectingListing := by
  have found : (planned selecting (declared "a")).toOption = some selectingListing := by
    decide +kernel
  cases h : planned selecting (declared "a") with
  | error e =>
      rw [h] at found
      cases found
  | ok listing =>
      rw [h] at found
      exact congrArg _ (Option.some.inj found)

theorem parseSchema_declaring {column : String} (h : column = "a" ∨ column = "b") :
    Sql.parseSchema (declaring column) = .ok (declared column) := by
  rcases h with rfl | rfl
  · decide +kernel
  · decide +kernel

end TemporalDB.Pipeline
