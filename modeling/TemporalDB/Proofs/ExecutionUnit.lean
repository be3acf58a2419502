import TemporalDB.ExecutionUnit

/-!
# Calls of loaded units

A loaded unit answers through the entry points that were asked for when it was loaded, and says of
every other that it is missing.
-/

namespace TemporalDB.ExecutionUnit

inductive Call where
  | makeDatabase (files : FileTree) (root : Path) (now : Instant)
  | getSize (table : String)
  | runQuery (params : List String) (explain : Bool) (now : Instant)

def Call.symbol : Call → String
  | .makeDatabase .. => EntryPoint.makeDatabase
  | .getSize .. => EntryPoint.getSize
  | .runQuery .. => EntryPoint.query

def invoke (u : ExecutionUnit) (db : Database) : Call → Except RunError Unit × Database
  | .makeDatabase files root now => ((u.makeDatabase files root now).map fun _ => (), db)
  | .getSize table => ((u.getSize db table).map fun _ => (), db)
  | .runQuery params explain now =>
    let (output, db) := u.runQuery db params explain now
    (output.map fun _ => (), db)

variable {u : ExecutionUnit} {symbol : String} {call : Call}

theorem entry_of_mem (h : symbol ∈ u.symbols) : u.entry symbol = .ok u.unit.program :=
  if_pos (List.contains_iff_mem.mpr h)

theorem entry_of_not_mem (h : symbol ∉ u.symbols) :
    u.entry symbol = .error (.load (.symbolMissing symbol u.path)) :=
  if_neg (by rwa [List.contains_iff_mem])

/-- An entry point that was not asked for is missing, and the database stays as it is. -/
theorem invoke_of_not_mem (db : Database) (h : call.symbol ∉ u.symbols) :
    u.invoke db call = (.error (.load (.symbolMissing call.symbol u.path)), db) := by
  have missing := entry_of_not_mem h
  cases call with
  | makeDatabase files root now =>
      change u.entry EntryPoint.makeDatabase = _ at missing
      unfold invoke makeDatabase
      rw [missing]
      rfl
  | getSize table =>
      change u.entry EntryPoint.getSize = _ at missing
      unfold invoke getSize
      rw [missing]
      rfl
  | runQuery params explain now =>
      change u.entry EntryPoint.query = _ at missing
      unfold invoke runQuery
      rw [missing]
      rfl

/-- The entry points of a unit are those of the kind of its program. -/
theorem program_of_provides {u : CompiledUnit} (h : u.provides symbol = true) :
    (∃ schema, u.program = .definition schema) ∧ symbol ≠ EntryPoint.query ∨
      (∃ q, u.program = .query q) ∧ symbol = EntryPoint.query := by
  unfold CompiledUnit.provides at h
  rw [Bool.and_eq_true] at h
  cases program : u.program with
  | definition schema =>
      refine Or.inl ⟨⟨schema, rfl⟩, ?_⟩
      rintro rfl
      simp [program, EntryPoint.query, EntryPoint.makeDatabase, EntryPoint.getSize] at h
  | query q =>
      rw [program] at h
      exact Or.inr ⟨⟨q, rfl⟩, of_decide_eq_true h.1⟩

theorem map_mapError_ne_load {ε α : Type} (result : Except ε α) (f : ε → ExecError)
    (cause : LoadError) :
    ((result.mapError fun e => RunError.execution (f e)).map fun _ => ()) ≠
      .error (.load cause) := by
  cases result with
  | error e => nofun
  | ok a => nofun

/-- **An entry point that the unit provides is there**, if it was asked for. -/
theorem invoke_of_mem (db : Database) (h : call.symbol ∈ u.symbols)
    (provides : u.unit.provides call.symbol = true) (cause : LoadError) :
    (u.invoke db call).1 ≠ .error (.load cause) := by
  have entered := entry_of_mem h
  cases call with
  | makeDatabase files root now =>
      change u.entry EntryPoint.makeDatabase = _ at entered
      rcases program_of_provides provides with ⟨⟨schema, program⟩, -⟩ | ⟨-, other⟩
      · unfold invoke makeDatabase
        rw [entered, program]
        exact map_mapError_ne_load _ _ cause
      · exact absurd other (show EntryPoint.makeDatabase ≠ EntryPoint.query by decide)
  | getSize table =>
      change u.entry EntryPoint.getSize = _ at entered
      rcases program_of_provides provides with ⟨⟨schema, program⟩, -⟩ | ⟨-, other⟩
      · unfold invoke getSize
        rw [entered, program]
        exact map_mapError_ne_load _ _ cause
      · exact absurd other (show EntryPoint.getSize ≠ EntryPoint.query by decide)
  | runQuery params explain now =>
      change u.entry EntryPoint.query = _ at entered
      rcases program_of_provides provides with ⟨-, other⟩ | ⟨⟨q, program⟩, -⟩
      · exact absurd rfl other
      · unfold invoke runQuery
        rw [entered, program]
        exact map_mapError_ne_load _ id cause

end TemporalDB.ExecutionUnit
