import TemporalDB.Proofs.Execution.Opened
import TemporalDB.Proofs.Pipeline.OpenUnits
import TemporalDB.Proofs.Sql.Arity

/-!
# Databases of the schema that was compiled last

Compiling a schema replaces the definition in its file and forgets the one that was kept open. What
is opened next is a database of that schema, whatever lay in the work directory and whatever the
loader had kept.
-/

namespace TemporalDB

open FileTree

/-- The places that a schema names fit 64 bits if its text does. -/
theorem Sql.fits_of_parseSchema {text : String} {schema : Schema}
    (size : text.length < Text.bound64) (parsed : parseSchema text = .ok schema) : schema.Fits := by
  intro r hr i hi
  have inside := ((declared_of_parseSchema parsed).relations r hr).key_lt i hi
  have arity := arity_le_of_parseSchema parsed r hr
  omega

namespace Pipeline

variable [Tags] {p p' : Pipeline} {text : String} {d : Definition} {symbols : List String} {db : Database}
  {name : String} {now : Instant}

/-- **What is loaded after a schema was compiled is its definition.** -/
theorem loads_of_compileSchema (inProcess : p.cache.compiler = .inProcess)
    (size : text.length < Text.bound64) (done : p.compileSchema text = (.ok d, p'))
    (provides : ∀ s ∈ symbols, (Assembly.definitionUnit d.schema).provides s = true) :
    p'.loader.Loads p'.files d.artifact symbols
      ⟨d.artifact, p'.loader.reads, Assembly.definitionUnit d.schema⟩ := by
  obtain ⟨parsed, artifact, loader, built⟩ := exists_of_compileSchema done
  have stored := BuildCache.read_of_compileStored inProcess built
    (assemble_of_parseSchema parsed)
  have forgotten : p'.loader.kept.find? d.artifact.parts = none := by
    rw [loader]
    exact OrderedMap.find?_erase_self
  refine Loader.loads_artifact (Sql.fits_of_parseSchema size parsed) rfl provides forgotten ?_
  rw [artifact]
  exact stored

end Pipeline

/-! ## What a definition answers -/

namespace ExecutionUnit

variable {schema : Schema} {files : FileTree} {root : Path} {now : Instant} {db : Database}
  {table : String} {u : ExecutionUnit}

theorem makeDatabase_definition (unit : u.unit = Assembly.definitionUnit schema)
    (asked : u.symbols.contains EntryPoint.makeDatabase = true) :
    u.makeDatabase files root now =
      (Database.open files schema root now).mapError fun e => .execution (.storage e) := by
  unfold makeDatabase entry
  rw [if_pos asked, unit]
  rfl

theorem getSize_definition (unit : u.unit = Assembly.definitionUnit schema)
    (asked : u.symbols.contains EntryPoint.getSize = true) :
    u.getSize db table = match db.table? table with
      | some t => .ok t.physicalSize
      | none => .error (.execution (.storage (.unknownTable table))) := by
  unfold getSize entry
  rw [if_pos asked, unit, ok_bind]
  dsimp only [Assembly.definitionUnit]
  unfold Database.sizeOf Database.table
  cases db.table? table <;> rfl

end ExecutionUnit

namespace Pipeline

section

variable [Tags] {p p' : Pipeline} {text : String} {d : Definition}

/-- What is opened after a schema was compiled is a database of that schema. -/
theorem openDatabase_of_compileSchema (inProcess : p.cache.compiler = .inProcess)
    (size : text.length < Text.bound64) (done : p.compileSchema text = (.ok d, p'))
    (now : Instant) : (p'.openDatabase d now).1 =
      (Database.open p'.files d.schema p.config.tableDir now).mapError
        fun e => .execution (.storage e) := by
  obtain ⟨-, -, -, built⟩ := exists_of_compileSchema done
  have configured : p'.config = p.config := by
    have same := (p.cache.compileStored_config (some (Listing.ofSchema d.schema).text)
      p.config.definitionName).1
    rw [built] at same
    exact same
  rw [openDatabase_of_loads (loads_of_compileSchema inProcess size done provides_definitionUnit)]
  dsimp only
  rw [ExecutionUnit.makeDatabase_definition rfl rfl, configured]

/-- **A database is one of the schema that was compiled last**, whatever files there were and
whatever was kept open: if the table files can be loaded, it has just the tables of the schema, and
the sizes that are told are those of just these tables. -/
theorem definition_never_stale (inProcess : p.cache.compiler = .inProcess)
    (size : text.length < Text.bound64)
    (done : p.compileSchema text = (.ok d, p')) (now : Instant) :
    Sql.parseSchema text = .ok d.schema ∧
      ((∃ r ∈ d.schema.relations, ∃ e,
          (p'.openDatabase d now).1 = .error (.execution (.storage e)) ∧
          Database.IsFileError (Database.filePath p.config.tableDir r.name) e) ∨
        ∃ db, (p'.openDatabase d now).1 = .ok db ∧ db.Realizes d.schema ∧
          ∀ name, ((p'.openDatabase d now).2.getSize d db name).1 =
            match db.table? name with
            | some t => .ok t.physicalSize
            | none => .error (.execution (.storage (.unknownTable name)))) := by
  obtain ⟨parsed, -⟩ := exists_of_compileSchema done
  refine ⟨parsed, ?_⟩
  have loads := loads_of_compileSchema inProcess size done provides_definitionUnit
  rw [openDatabase_of_compileSchema inProcess size done]
  cases opened : Database.open p'.files d.schema p.config.tableDir now with
  | error e =>
      obtain ⟨r, hr, fileError⟩ := Database.exists_of_open_eq_error opened
      exact Or.inl ⟨r, hr, e, rfl, fileError⟩
  | ok db =>
      refine Or.inr ⟨db, rfl, ?_, ?_⟩
      · exact (Database.OpenedOn.opened opened).realizes (Sql.declared_of_parseSchema parsed).names
      · intro name
        obtain ⟨o, again, unit⟩ := loads.again
          ⟨d.artifact, p'.loader.reads, Assembly.definitionUnit d.schema,
            [EntryPoint.makeDatabase, EntryPoint.getSize]⟩
          [EntryPoint.getSize] (by
            intro s hs
            exact provides_definitionUnit s (List.mem_cons_of_mem _ hs))
        rw [openDatabase_of_loads loads]
        dsimp only
        rw [getSize_of_loads again]
        exact ExecutionUnit.getSize_definition unit rfl

end

/-- There are no files of tables where only the work directory has been written to. -/
theorem readText_of_sameOutside {files : FileTree} (outside : furnished.SameOutside files ["tmp"]) :
    files.readText (Database.filePath keeping.tableDir "t") = .error .notFound := by
  have nothing : files.node? ["tbl"] = none := by
    rw [outside.node _ (by simp)]
    unfold furnished
    rw [node?_addDirectory, if_neg (by decide)]
    rfl
  have home : files.home = [] := outside.home
  have pieces : (Database.filePath keeping.tableDir "t").pieces = ["..", "tbl", "t.tbl"] := by
    decide
  have place : files.place (Database.filePath keeping.tableDir "t") = .error .notFound := by
    unfold place walkFrom
    rw [pieces, home, if_neg (by decide), if_neg (by decide), if_neg (by decide), if_neg (by decide)]
    simp [walk, nothing]
    rfl
  unfold FileTree.readText FileTree.read
  rw [place]
  rfl

/-- One schema was compiled and its definition is open when another one is compiled: a database of
the other one is opened. -/
theorem definition_never_stale_redefined :
    let p := (new keeping .inProcess furnished).run
      [.compileSchema (declaring "a"), .openDatabase (defined "a") .first]
    p.loader.kept.find? (defined "a").artifact.parts ≠ none ∧
      ∃ p', p.compileSchema (declaring "b") = (.ok (defined "b"), p') ∧
        ∃ db, (p'.openDatabase (defined "b") .first).1 = .ok db ∧ db.Realizes (declared "b") ∧
          ∀ name, ((p'.openDatabase (defined "b") .first).2.getSize (defined "b") db name).1 =
            match db.table? name with
            | some t => .ok t.physicalSize
            | none => .error (.execution (.storage (.unknownTable name))) := by
  intro p
  obtain ⟨-, files, l, opened, holds, outside, placeable, kept⟩ :=
    exists_opened .inProcess (Or.inl rfl) fun _ _ _ _ => rfl
  have opened_eq : p = ⟨⟨keeping, .inProcess, files, 1⟩, l⟩ := opened
  obtain ⟨after, built, -, outside', -⟩ := compileStored_definition .inProcess 1 sound_keeping
    holds placeable (assemble_of_parseSchema (parseSchema_declaring (Or.inr rfl)))
    fun _ _ _ _ => rfl
  have compiled : p.compileSchema (declaring "b") = (.ok (defined "b"),
      ⟨⟨keeping, .inProcess, after, 2⟩, l.invalidate (defined "b").artifact⟩) := by
    rw [opened_eq]
    exact compileSchema_of_built (parseSchema_declaring (Or.inr rfl)) built
  have inProcess : p.cache.compiler = .inProcess := by rw [opened_eq]
  have size : (declaring "b").length < Text.bound64 := by decide
  refine ⟨?_, _, compiled, ?_⟩
  · rw [opened_eq]
    exact kept ▸ Option.some_ne_none _
  · -- there are no files of tables, so that none can be at fault
    rcases (definition_never_stale inProcess size compiled .first).2 with
      ⟨-, -, e, failed, -⟩ | opens
    · have root : p.config.tableDir = keeping.tableDir := by rw [opened_eq]; rfl
      have missing := readText_of_sameOutside (outside.trans outside')
      obtain ⟨db, opens⟩ : ∃ db, Database.open after (declared "b") keeping.tableDir .first = .ok db :=
        Database.exists_open_of_missing (List.forall_mem_singleton.mpr missing)
      rw [openDatabase_of_compileSchema inProcess size compiled, root] at failed
      cases failed.symm.trans (congrArg (Except.mapError _) opens)
    · exact opens

end Pipeline

end TemporalDB
