import TemporalDB.Proofs.BuildCache.Frame
import TemporalDB.Proofs.WorkDirectory.Build

/-!
# Units that are built again

Whether the unit of a query can be built again depends on its stored listing and not on the file at
its own path. So it can be built once that file was taken away just if it could before.
-/

namespace TemporalDB

open FileTree

variable {config : Configuration} {files : FileTree} {name text : String} {u : CompiledUnit}
  {c : BuildCache} {w : List String}

theorem BuildCache.evict_eq_ok (file : (∃ bytes, c.files.read (c.config.artifactPath name) = .ok bytes) ∨
      c.files.read (c.config.artifactPath name) = .error .notFound) :
    c.evict name =
      (.ok (), { c with files := c.files.discard (c.config.artifactPath name) }) := by
  refine Prod.ext ?_ (BuildCache.evict_eq c name)
  unfold BuildCache.evict FileTree.remove
  unfold FileTree.read at file
  dsimp only
  cases hplace : c.files.place (c.config.artifactPath name) with
  | error e =>
      rw [hplace] at file
      rcases file with ⟨bytes, read⟩ | absent
      · cases read
      · cases absent
        rfl
  | ok place =>
      rw [hplace, ok_bind] at file
      rw [ok_bind]
      cases hnode : c.files.node? place with
      | none => rfl
      | some node =>
          cases node with
          | file bytes => rfl
          | directory =>
              rw [hnode] at file
              rcases file with ⟨bytes, read⟩ | absent
              · cases read
              · cases absent

variable [Tags]

/-- A unit can be built from the listing that is stored under a name: once the work directory is
made, the listing is there and is assembled to the unit, a temporary file can be made for it, and no
directory is where it is to be moved. -/
def Rebuilds (config : Configuration) (files : FileTree) (name : String) (u : CompiledUnit) :
    Prop :=
  ∃ made listing, files.createDirectories config.workDir = .ok made ∧
    made.readText (config.sourcePath name) = .ok listing ∧ Assembly.assemble listing = .ok u ∧
    (∃ place, made.place (made.temporary config.workDir name) = .ok place) ∧
    made.look (config.artifactPath name) ≠ some .directory

/-- Where the listing of a query can be read, the work directory is there. -/
theorem rebuilds_of_stored {listing : String} (query : name = (Fingerprint.of text).artifactName)
    (stored : files.readText (config.sourcePath name) = .ok listing)
    (assembled : Assembly.assemble listing = .ok u)
    (writable : ∃ place, files.place (files.temporary config.workDir name) = .ok place)
    (undirected : files.look (config.artifactPath name) ≠ some .directory) :
    Rebuilds config files name u := by
  refine ⟨files, listing, ?_, stored, assembled, writable, undirected⟩
  obtain ⟨place, hplace, -⟩ := readText_eq_ok_iff.mp stored
  rw [query, sourcePath_artifactName] at hplace
  obtain ⟨legal, -, w, leads, -⟩ := (place_join_eq_ok_iff (isFileName_listingName text)).mp hplace
  exact createDirectories_of_leads leads (legal.of_join (isFileName_listingName text))

theorem Rebuilds.assign (rebuilds : Rebuilds config files (Fingerprint.of text).artifactName u)
    (room : config.HasRoom) (leads : files.Leads config.workDir w)
    (free : files.node? (w ++ [unitName text]) ≠ some .directory) (content : Option ByteArray) :
    Rebuilds config (files.assign (w ++ [unitName text]) content)
      (Fingerprint.of text).artifactName u := by
  obtain ⟨made, listing, hmade, stored, assembled, ⟨place, hplace⟩, undirected⟩ := rebuilds
  cases eq_of_createDirectories leads hmade
  have htarget : files.place (config.workDir.join (unitName text)) = .ok (w ++ [unitName text]) :=
    room.place_unit leads
  have agrees := agreesBut_assign content (isFileName_unitName text) htarget free
  refine ⟨_, listing, createDirectories_again hmade agrees.keeps, ?_, assembled,
    place_temporary_assign leads.directory free getLast?_append_unit hplace, ?_⟩
  · rw [readText_eq_ok_iff_read] at stored ⊢
    refine (agrees.read_iff ?_).mpr stored
    rintro _ hsource rfl
    exact BuildCache.place_source_ne_place_artifact hsource htarget rfl
  · rwa [Ne, agrees.look_eq_directory_iff]

/-- **The file of the unit does not count.** -/
theorem rebuilds_discard_iff :
    Rebuilds config (files.discard (config.artifactPath (Fingerprint.of text).artifactName))
        (Fingerprint.of text).artifactName u ↔
      Rebuilds config files (Fingerprint.of text).artifactName u := by
  rcases discard_cases files (config.artifactPath (Fingerprint.of text).artifactName) with
    stays | ⟨place, bytes, hplace, hnode, gone⟩
  · rw [stays]
  · obtain ⟨room, w, leads, rfl⟩ := exists_of_place_unit hplace
    have free : files.node? (w ++ [unitName text]) ≠ some .directory := by
      rw [hnode]
      simp
    have agrees := agreesBut_assign none (isFileName_unitName text) hplace free
    have back : (files.assign (w ++ [unitName text]) none).assign (w ++ [unitName text])
        (some bytes) = files := by
      rw [assign_assign]
      exact assign_self ((node?_append (unitName text)).symm.trans hnode)
    rw [gone]
    constructor
    · intro rebuilds
      have again := rebuilds.assign room (agrees.leads_iff.mpr leads)
        (mt agrees.directory_iff.mp free) (some bytes)
      rwa [back] at again
    · intro rebuilds
      exact rebuilds.assign room leads free none

omit [Tags] in
/-- Whether the file of the unit is there does not count for the work directory. -/
theorem exists_createDirectories_discard {made : FileTree}
    (hmade : files.createDirectories config.workDir = .ok made) :
    ∃ made',
      (files.discard (config.artifactPath (Fingerprint.of text).artifactName)).createDirectories
        config.workDir = .ok made' := by
  rcases discard_cases files (config.artifactPath (Fingerprint.of text).artifactName) with
    stays | ⟨place, bytes, hplace, hnode, gone⟩
  · rw [stays]
    exact ⟨made, hmade⟩
  · obtain ⟨room, w, leads, -⟩ := exists_of_place_unit hplace
    have agrees := agreesBut_discard (t := files) (p := config.workDir) (isFileName_unitName text)
    exact ⟨_, createDirectories_of_hasRoom room (agrees.leads_iff.mpr leads)⟩

namespace BuildCache

/-- **A unit is built again from its stored listing, or an error is reported.** Either way the
toolchain has run once, if the work directory could be made. -/
theorem rebuild_cases (inProcess : c.compiler = .inProcess) (plain : '/' ∉ name.toList) :
    (∃ u after, Rebuilds c.config c.files name u ∧ c.rebuild name = (.ok .compiled, after) ∧
      after.builds = c.builds + 1 ∧
      after.files.read (c.config.artifactPath name) = .ok u.artifact.toUTF8) ∨
    (∀ u, ¬ Rebuilds c.config c.files name u) ∧ ∃ e after, c.rebuild name = (.error e, after) ∧
      ∀ made, c.files.createDirectories c.config.workDir = .ok made →
        after.builds = c.builds + 1 := by
  rcases pave_cases c.files c.config.workDir with
    ⟨made, hmade, paves⟩ | ⟨e, left, unmade, paves⟩
  · unfold rebuild compileStored
    rw [paves]
    dsimp only
    rcases compile_cases_of_inProcess (c := { c with files := made }) inProcess name with
      ⟨target, bytes, compiles, done⟩ | ⟨e, failed⟩
    · have read := compiles.read
      obtain ⟨listing, u, stored, assembled, artifact⟩ := compiles.assembles
      obtain rfl := artifact.symm
      refine Or.inl ⟨u, _, ⟨made, listing, hmade, stored, assembled, compiles.writable, ?_⟩, done,
        rfl, read⟩
      rw [look_eq_of_place compiles.place]
      exact compiles.free
    · refine Or.inr ⟨?_, e, _, failed, fun _ _ => rfl⟩
      rintro u ⟨made', listing, there, stored, assembled, ⟨place, hplace⟩, undirected⟩
      cases hmade.symm.trans there
      obtain ⟨w, -, htarget⟩ := place_artifact_of_temporary plain hplace
      rw [look_eq_of_place htarget] at undirected
      -- had all of this been so, the compilation would have succeeded
      have done := compile_eq_ok (c := { c with files := made }) inProcess
        ⟨⟨listing, u, stored, assembled, rfl⟩, ⟨place, hplace⟩, htarget, undirected⟩
      cases failed.symm.trans done
  · rw [unmade]
    refine Or.inr ⟨?_, _, _, compileStored_of_unpaved paves none name, nofun⟩
    rintro u ⟨made, -, there, -⟩
    cases unmade.symm.trans there

/-- **A unit that is evicted can be built again if it could before**, and otherwise an error is
reported. Either way the toolchain has run once, if the work directory could be made. -/
theorem evict_rebuild_cases (inProcess : c.compiler = .inProcess)
    (query : name = (Fingerprint.of text).artifactName)
    (file : (∃ bytes, c.files.read (c.config.artifactPath name) = .ok bytes) ∨
      c.files.read (c.config.artifactPath name) = .error .notFound) :
    ∃ evicted, c.evict name = (.ok (), evicted) ∧
      ((∃ u after, Rebuilds c.config c.files name u ∧
          evicted.rebuild name = (.ok .compiled, after) ∧
          after.builds = c.builds + 1 ∧
          after.files.read (c.config.artifactPath name) = .ok u.artifact.toUTF8) ∨
        (∀ u, ¬ Rebuilds c.config c.files name u) ∧
          ∃ e after, evicted.rebuild name = (.error e, after) ∧
            ∀ made, c.files.createDirectories c.config.workDir = .ok made →
              after.builds = c.builds + 1) := by
  have plain : '/' ∉ name.toList := by
    rw [query]
    exact plain_artifactName
  have same : ∀ u, Rebuilds c.config (c.files.discard (c.config.artifactPath name)) name u ↔
      Rebuilds c.config c.files name u := by
    intro u
    rw [query]
    exact rebuilds_discard_iff
  refine ⟨_, evict_eq_ok file, ?_⟩
  rcases rebuild_cases (c := { c with files := c.files.discard (c.config.artifactPath name) })
    inProcess plain with ⟨u, after, rebuilds, done⟩ | ⟨none, e, after, failed, builds⟩
  · exact Or.inl ⟨u, after, (same u).mp rebuilds, done⟩
  · refine Or.inr ⟨fun u => mt (same u).mpr (none u), e, after, failed, ?_⟩
    intro made hmade
    have there : ∃ made', (c.files.discard (c.config.artifactPath name)).createDirectories
        c.config.workDir = .ok made' := by
      rw [query]
      exact exists_createDirectories_discard hmade
    obtain ⟨made', hmade'⟩ := there
    exact builds made' hmade'

end BuildCache

end TemporalDB
