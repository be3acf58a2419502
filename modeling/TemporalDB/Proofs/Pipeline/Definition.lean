import TemporalDB.Proofs.Assembly.Relation
import TemporalDB.Proofs.BuildCache.Frame
import TemporalDB.Proofs.Encoding.CompiledUnit
import TemporalDB.Proofs.Pipeline.Run
import TemporalDB.Proofs.Sql.Declarations

/-!
# Definitions and what they are loaded as

When a schema has been compiled, the file of the definition holds the unit of the schema, whatever
was there before and whatever was kept open.
-/

namespace TemporalDB

open FileTree

variable {c : BuildCache} {files : FileTree} {path : Path} {name listing text : String}
  {schema : Schema} {u : CompiledUnit}

/-- The listing of a schema that was read is assembled to its definition. -/
theorem assemble_of_parseSchema (parsed : Sql.parseSchema text = .ok schema) :
    Assembly.assemble (Listing.ofSchema schema).text = .ok (Assembly.definitionUnit schema) := by
  apply Assembly.assemble_ofSchema
  intro r hr
  have declared : r.Declared := (Sql.declared_of_parseSchema parsed).relations r hr
  exact declared.writable (Sql.admitted_of_parseSchema parsed r hr)

/-- A unit of the version that is read is read from its artifact. -/
theorem readUnit_artifact (fits : u.program.Fits) (version : u.abi = abiVersion)
    (stored : files.read path = .ok u.artifact.toUTF8) : Loader.readUnit files path = .ok u := by
  have decoded : CompiledUnit.ofBytes u.artifact.toUTF8 = .ok u := by
    rw [CompiledUnit.ofBytes_toUTF8, CompiledUnit.ofArtifact_artifact fits, if_pos version]
  exact Loader.readUnit_eq_ok_iff.mpr ⟨_, stored, decoded⟩

/-- A unit that is not kept open is loaded from its artifact. -/
theorem Loader.loads_artifact {l : Loader} {symbols : List String} (fits : u.program.Fits)
    (version : u.abi = abiVersion) (provides : ∀ s ∈ symbols, u.provides s = true)
    (absent : l.kept.find? path.parts = none) (stored : files.read path = .ok u.artifact.toUTF8) :
    l.Loads files path symbols ⟨path, l.reads, u⟩ := by
  refine ⟨?_, provides⟩
  unfold Loader.find
  rw [absent, readUnit_artifact fits version stored]
  rfl

theorem provides_definitionUnit : ∀ symbol ∈ [EntryPoint.makeDatabase, EntryPoint.getSize],
    (Assembly.definitionUnit schema).provides symbol = true := by
  simp [CompiledUnit.provides, CompiledUnit.hasExport, Assembly.definitionUnit]

theorem Pipeline.openDatabase_of_loads {p : Pipeline} {d : Definition} {o : OpenUnit} {now : Instant}
    (loads : p.loader.Loads p.files d.artifact [EntryPoint.makeDatabase, EntryPoint.getSize] o) :
    let u : ExecutionUnit :=
      ⟨d.artifact, o.serial, o.unit, [EntryPoint.makeDatabase, EntryPoint.getSize]⟩
    p.openDatabase d now = (u.makeDatabase p.files p.config.tableDir now,
      { p with loader := (p.loader.keep d.artifact o).release u }) := by
  unfold Pipeline.openDatabase
  rw [Loader.load_eq_ok loads]

theorem Pipeline.getSize_of_loads {p : Pipeline} {d : Definition} {o : OpenUnit} {db : Database}
    {table : String} (loads : p.loader.Loads p.files d.artifact [EntryPoint.getSize] o) :
    let u : ExecutionUnit := ⟨d.artifact, o.serial, o.unit, [EntryPoint.getSize]⟩
    p.getSize d db table = (u.getSize db table,
      { p with loader := (p.loader.keep d.artifact o).release u }) := by
  unfold Pipeline.getSize
  rw [Loader.load_eq_ok loads]

/-- **A listing that was compiled by the assembler has its unit beside it.** -/
theorem BuildCache.read_of_compileStored [Tags] (inProcess : c.compiler = .inProcess)
    {status : BuildStatus} {after : BuildCache}
    (done : c.compileStored (some listing) name = (.ok status, after))
    (assembled : Assembly.assemble listing = .ok u) :
    after.files.read (c.config.artifactPath name) = .ok u.artifact.toUTF8 := by
  rcases compileStored_cases (some listing) name with
    ⟨ran, prepares, compiled⟩ | ⟨-, e, files, -, failed⟩
  · obtain ⟨made, hmade, agrees, stored⟩ := prepares.agrees
    rw [compiled] at done
    rcases compile_cases_of_inProcess (c := { c with files := ran }) inProcess name with
      ⟨target, bytes, compiles, done'⟩ | ⟨e, failed⟩
    · cases done'.symm.trans done
      obtain ⟨listing', u', hlisting, assembled', made'⟩ := compiles.assembles
      have same := (readText_eq_ok_iff_read.mp hlisting).symm.trans (stored listing rfl)
      cases String.toByteArray_inj.mp (Except.ok.inj same)
      cases assembled.symm.trans assembled'
      rw [← made']
      exact compiles.read
    · cases failed.symm.trans done
  · cases (failed c.compiler).symm.trans done

end TemporalDB
