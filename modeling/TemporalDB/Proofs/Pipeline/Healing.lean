import TemporalDB.Proofs.Assembly.Fits
import TemporalDB.Proofs.BuildCache.Rebuild
import TemporalDB.Proofs.Pipeline.Genuine

/-!
# Units that heal

The unit of a query that is refused is taken away, built again from its stored listing and loaded
once more. The query is run with the unit that this gives, or it fails with the database as it was;
a unit that was refused is never run.
-/

namespace TemporalDB

open FileTree Text

variable {t : FileTree} {path : Path} {listing name : String} {u u' : CompiledUnit}
  {program : QueryProgram} {config : Configuration} {files : FileTree}

/-! ## Sizes of files -/

theorem Text.length_le_utf8ByteSize (s : String) : s.length ≤ s.utf8ByteSize := by
  have size : ∀ cs : List Char, cs.length ≤ (String.ofList cs).utf8ByteSize := by
    intro cs
    induction cs with
    | nil => exact Nat.zero_le _
    | cons c cs ih =>
        have first := c.utf8Size_pos
        rw [String.ofList_cons, String.utf8ByteSize_append, String.utf8ByteSize_singleton,
          List.length_cons]
        omega
  have whole := size s.toList
  rwa [String.ofList_toList, String.length_toList] at whole

/-- No file has more bytes than 64 bits can count. -/
def FileTree.Sized (t : FileTree) : Prop :=
  ∀ place bytes, t.node? place = some (.file bytes) → bytes.size < bound64

theorem FileTree.Sized.length_lt (sized : t.Sized) (stored : t.readText path = .ok listing) :
    listing.length < bound64 := by
  obtain ⟨place, -, hnode⟩ := readText_eq_ok_iff.mp stored
  exact Nat.lt_of_le_of_lt (length_le_utf8ByteSize listing) (sized place _ hnode)

/-! ## Units of queries -/

theorem provides_query (hprogram : u.program = .query program)
    (exported : u.hasExport EntryPoint.query = true) : u.provides EntryPoint.query = true := by
  unfold CompiledUnit.provides
  rw [hprogram, exported]
  rfl

theorem ExecutionUnit.runQuery_of_program (unit : ExecutionUnit)
    (asked : unit.symbols.contains EntryPoint.query = true)
    (hprogram : unit.unit.program = .query program) (db : Database) (params : List String)
    (explain : Bool) (now : Instant) : unit.runQuery db params explain now =
      ((Execution.runQuery program db params explain now).1.mapError .execution,
        (Execution.runQuery program db params explain now).2) := by
  unfold ExecutionUnit.runQuery ExecutionUnit.entry
  rw [if_pos asked, hprogram]

/-! ## Units that are built again -/

section

variable [Tags]

namespace Rebuilds

theorem unique (rebuilds : Rebuilds config files name u)
    (rebuilds' : Rebuilds config files name u') : u = u' := by
  obtain ⟨made, listing, hmade, stored, assembled, -⟩ := rebuilds
  obtain ⟨made', listing', hmade', stored', assembled', -⟩ := rebuilds'
  cases hmade.symm.trans hmade'
  cases stored.symm.trans stored'
  exact Except.ok.inj (assembled.symm.trans assembled')

theorem fits (rebuilds : Rebuilds config files name u) (sized : files.Sized) :
    u.program.Fits ∧ u.abi = abiVersion := by
  obtain ⟨made, listing, hmade, stored, assembled, -⟩ := rebuilds
  have sized' : made.Sized := fun place bytes hnode =>
    sized place bytes (((createDirectories_eq_ok hmade).1.file place bytes).mp hnode)
  obtain ⟨version, fits⟩ := Assembly.fits_of_assemble assembled
  exact ⟨fits (Or.inl (sized'.length_lt stored)), version⟩

end Rebuilds

namespace Pipeline

variable {p : Pipeline} {q : QueryArtifact} {db : Database} {params : List String} {explain : Bool}
  {now : Instant}

/-- There is a file with the unit of a query, or there is none. -/
def HasFile (p : Pipeline) (q : QueryArtifact) : Prop :=
  (∃ bytes, p.files.read q.artifact = .ok bytes) ∨ p.files.read q.artifact = .error .notFound

theorem loadQuery_of_refused {e : LoadError}
    (refused : (p.loader.load p.files q.artifact [EntryPoint.query]).1 = .error e) :
    p.loadQuery q = p.recover q := by
  have corrupt := Loader.isCorruption_of_load refused
  have stays := Loader.eq_of_load_error (Prod.ext refused rfl)
  unfold loadQuery
  dsimp only
  rw [show p.loader.load p.files q.artifact [EntryPoint.query] = (.error e, p.loader) from
    Prod.ext refused stays]
  dsimp only
  rw [corrupt]
  rfl

/-- **What becomes of a unit that is refused**: it is built again and loaded, or that fails. -/
theorem recover_cases (inProcess : p.cache.compiler = .inProcess)
    (issued : q.IsIssued p.config) (file : p.HasFile q) (sized : p.files.Sized) :
    (p.recover q).2.cache = ((p.cache.evict q.name).2.rebuild q.name).2 ∧
      ((∃ u, Rebuilds p.config p.files q.name u ∧ u.provides EntryPoint.query = true ∧
          (p.recover q).1 = .ok ⟨q.artifact, p.loader.reads, u, [EntryPoint.query]⟩ ∧
          (p.recover q).2.cache.builds = p.cache.builds + 1 ∧
          (p.recover q).2.files.read q.artifact = .ok u.artifact.toUTF8) ∨
        (∀ u, Rebuilds p.config p.files q.name u → u.provides EntryPoint.query = false) ∧
          (∃ e, (p.recover q).1 = .error e) ∧
          ∀ made, p.files.createDirectories p.config.workDir = .ok made →
            (p.recover q).2.cache.builds = p.cache.builds + 1) := by
  obtain ⟨text, hname, hartifact⟩ := issued
  unfold HasFile at file
  rw [hartifact] at file
  obtain ⟨evicted, gone, ⟨u, after, rebuilds, done, builds, stored⟩ |
    ⟨none, e, after, failed, builds⟩⟩ := BuildCache.evict_rebuild_cases inProcess hname file
  · have recovered := recover_of_rebuild gone done
    obtain ⟨fits, version⟩ := rebuilds.fits sized
    -- the unit is no longer kept open, so it is read anew
    have absent : (p.loader.invalidate q.artifact).kept.find? q.artifact.parts = none :=
      OrderedMap.find?_erase_self
    rw [← Pipeline.config, ← hartifact] at stored
    rw [gone]
    dsimp only
    rw [done]
    cases provides : u.provides EntryPoint.query with
    | true =>
        have loads := Loader.loads_artifact fits version (List.forall_mem_singleton.mpr provides)
          absent stored
        rw [Loader.load_eq_ok loads] at recovered
        rw [recovered]
        exact ⟨rfl, Or.inl ⟨u, rebuilds, provides, rfl, builds, stored⟩⟩
    | false =>
        -- the rebuilt unit can be read, so only the missing symbol is left to refuse it
        have refused : ∃ e, ((p.loader.invalidate q.artifact).load after.files q.artifact
            [EntryPoint.query]).1 = .error e := by
          rw [Loader.load_eq_error_iff absent]
          intro bytes u' read decoded
          have again := Loader.readUnit_eq_ok_iff.mpr ⟨bytes, read, decoded⟩
          cases again.symm.trans (readUnit_artifact fits version stored)
          exact provides
        obtain ⟨e, failed⟩ := refused
        rw [recovered, failed]
        refine ⟨rfl, Or.inr ⟨?_, ⟨_, rfl⟩, fun _ _ => builds⟩⟩
        intro u' rebuilds'
        rw [rebuilds'.unique rebuilds]
        exact provides
  · rw [gone, recover_of_rebuild_error gone failed]
    dsimp only
    rw [failed]
    exact ⟨rfl, Or.inr ⟨fun u rebuilds => absurd rebuilds (none u), ⟨_, rfl⟩, builds⟩⟩

/-- **A query whose unit is refused heals, or fails after one build.** The file of a unit that is
not kept open is refused just if no unit of a query is decoded from it. Then, if the stored listing
is assembled to such a unit and this can be written, the query is run with it, its artifact is in
the file, and the toolchain has run once. If not, there is an error after one attempt to build the
unit again, and the database is as it was. As long as the file is accepted, nothing is built and no
file changes. -/
theorem runQuery_heals (inProcess : p.cache.compiler = .inProcess)
    (issued : q.IsIssued p.config) (file : p.HasFile q) (sized : p.files.Sized)
    (unopened : p.loader.kept.find? q.artifact.parts = none) (db : Database) (params : List String)
    (explain : Bool) (now : Instant) :
    let ran := p.runQuery q db params explain now
    let refused := ∃ e, (p.loader.load p.files q.artifact [EntryPoint.query]).1 = .error e
    (refused ↔ ∀ bytes u, p.files.read q.artifact = .ok bytes → CompiledUnit.ofBytes bytes = .ok u →
        u.provides EntryPoint.query = false) ∧
      (refused → ∀ u program, Rebuilds p.config p.files q.name u → u.program = .query program →
        u.hasExport EntryPoint.query = true →
        ran.1 = (Execution.runQuery program db params explain now).1.mapError .execution ∧
          ran.2.1 = (Execution.runQuery program db params explain now).2 ∧
          ran.2.2.files.read q.artifact = .ok u.artifact.toUTF8 ∧
          ran.2.2.cache.builds = p.cache.builds + 1) ∧
      (refused → (∀ u, Rebuilds p.config p.files q.name u → u.provides EntryPoint.query = false) →
        (∃ e, ran.1 = .error e) ∧ ran.2.1 = db ∧
          ran.2.2.cache = ((p.cache.evict q.name).2.rebuild q.name).2 ∧
          ∀ made, p.files.createDirectories p.config.workDir = .ok made →
            ran.2.2.cache.builds = p.cache.builds + 1) ∧
      (¬ refused → ran.2.2.cache = p.cache) := by
  intro ran refused
  obtain ⟨cache, outcome⟩ := recover_cases inProcess issued file sized
  refine ⟨Loader.load_eq_error_iff unopened, ?_, ?_, ?_⟩
  · rintro ⟨e, failed⟩ u program rebuilds hprogram exported
    rcases outcome with ⟨u', rebuilds', -, loaded, builds, stored⟩ | ⟨lacks, -⟩
    · cases rebuilds'.unique rebuilds
      have run : ran = _ :=
        runQuery_of_ok ((loadQuery_of_refused failed).trans (Prod.ext loaded rfl))
      have output := ExecutionUnit.runQuery_of_program
        ⟨q.artifact, p.loader.reads, u, [EntryPoint.query]⟩ rfl hprogram db params explain now
      unfold files at stored ⊢
      rw [run, output]
      exact ⟨rfl, rfl, stored, builds⟩
    · cases (lacks u rebuilds).symm.trans (provides_query hprogram exported)
  · rintro ⟨e, failed⟩ lacks
    rcases outcome with ⟨u, rebuilds, provides, -⟩ | ⟨-, ⟨e', gaveUp⟩, builds⟩
    · cases (lacks u rebuilds).symm.trans provides
    · have run : ran = _ :=
        runQuery_of_error ((loadQuery_of_refused failed).trans (Prod.ext gaveUp rfl))
      rw [run]
      exact ⟨⟨e', rfl⟩, rfl, cache, builds⟩
  · intro accepted
    rcases p.loadQuery_cases q with ⟨o, -, loaded⟩ | ⟨e, failed, -⟩
    · have run : ran = _ := runQuery_of_ok loaded
      rw [run]
    · exact absurd ⟨e, congrArg Prod.fst failed⟩ accepted

end Pipeline

end

/-! ## A damaged unit -/

namespace Pipeline

def listed : FileTree :=
  furnished.assign (["tmp"] ++ [listingName selecting]) (some selectingListing.toUTF8)

def damaged : FileTree := listed.assign (["tmp"] ++ [unitName selecting]) (some "\x7b".toUTF8)

def selected : QueryArtifact :=
  ⟨.of selecting, (Fingerprint.of selecting).artifactName,
    Configuration.default.artifactPath (Fingerprint.of selecting).artifactName, .cached⟩

theorem node?_furnished_ne_file {place : List String} {bytes : ByteArray} :
    furnished.node? place ≠ some (.file bytes) := by
  unfold furnished
  rw [node?_addDirectory]
  split
  · simp
  · rcases List.eq_nil_or_concat place with rfl | ⟨w, name, rfl⟩
    · simp [node?]
    · rw [List.concat_eq_append, node?_append, find?_new]
      simp

theorem sized_damaged : damaged.Sized := by
  intro place bytes hnode
  unfold damaged listed at hnode
  rw [node?_assign (by simp), node?_assign (by simp)] at hnode
  split at hnode
  · cases hnode
    decide +kernel
  · split at hnode
    · cases hnode
      decide +kernel
    · exact absurd hnode node?_furnished_ne_file

theorem free_furnished {name : String} : furnished.node? (["tmp"] ++ [name]) ≠ some .directory := by
  rw [node?_furnished]
  exact (Option.some_ne_none _).symm

theorem agreesBut_listed :
    furnished.AgreesBut listed (· = ["tmp"] ++ [listingName selecting]) :=
  agreesBut_assign _ (isFileName_listingName selecting)
    (hasRoom_default.place_listing leads_furnished) free_furnished

theorem leads_listed : listed.Leads Configuration.default.workDir ["tmp"] :=
  agreesBut_listed.leads_iff.mpr leads_furnished

theorem agreesBut_damaged : listed.AgreesBut damaged (· = ["tmp"] ++ [unitName selecting]) :=
  agreesBut_assign _ (isFileName_unitName selecting) (hasRoom_default.place_unit leads_listed)
    (mt agreesBut_listed.directory_iff.mp free_furnished)

theorem leads_damaged : damaged.Leads Configuration.default.workDir ["tmp"] :=
  agreesBut_damaged.leads_iff.mpr leads_listed

theorem placeable_damaged :
    Placeable .default damaged (Fingerprint.of selecting).artifactName := by
  have stored := (placeable_query selecting).assign (some selectingListing.toUTF8)
    leads_furnished.directory free_furnished
    (getLast?_append_src : (listingName selecting).toList.getLast? ≠ some 'p')
  exact stored.assign _ leads_listed.directory
    (mt agreesBut_listed.directory_iff.mp free_furnished) getLast?_append_unit

theorem rebuilds_damaged : Rebuilds .default damaged (Fingerprint.of selecting).artifactName
    ⟨abiVersion, [EntryPoint.query], .query ⟨0, "t", .execute selectingOperation⟩⟩ := by
  refine rebuilds_of_stored rfl ?_ assemble_selectingListing placeable_damaged.unit ?_
  · have other : listingName selecting ≠ unitName selecting := append_src_ne_append_unit
    refine readText_eq_ok_iff.mpr ⟨_, hasRoom_default.place_listing leads_damaged, ?_⟩
    unfold damaged listed
    rw [node?_assign_of_name_ne other, node?_assign_self]
    rfl
  · rw [look_eq_of_place (hasRoom_default.place_unit leads_damaged)]
    unfold damaged
    rw [node?_assign_self]
    simp

theorem runQuery_heals_damaged :
    let p := new .default .inProcess damaged
    let db := Database.new (declared "a") ⟨"../tbl/"⟩
    (∃ e, (p.loader.load p.files selected.artifact [EntryPoint.query]).1 = .error e) ∧
      (p.runQuery selected db [] false .first).1 = .ok (.resultSet ["a"] []) ∧
      (p.runQuery selected db [] false .first).2.2.cache.builds = 1 := by
  intro p db
  have content : p.files.read selected.artifact = .ok "\x7b".toUTF8 := by
    refine read_eq_ok_iff.mpr ⟨_, hasRoom_default.place_unit leads_damaged, ?_⟩
    exact node?_assign_self
  obtain ⟨refused, healed, -⟩ := runQuery_heals (p := p) (q := selected) rfl
    ⟨selecting, rfl, rfl⟩ (Or.inl ⟨_, content⟩) sized_damaged rfl db [] false .first
  have corrupt := refused.mpr (by
    intro bytes u read decoded
    cases content.symm.trans read
    rw [CompiledUnit.ofBytes_toUTF8] at decoded
    cases decoded)
  obtain ⟨output, -, -, builds⟩ := healed corrupt _ _ rebuilds_damaged rfl rfl
  refine ⟨corrupt, output.trans ?_, builds⟩
  rfl

end Pipeline

end TemporalDB
