import TemporalDB.Proofs.BuildCache.Frame
import TemporalDB.Proofs.Pipeline.Run

/-!
# Open units and what builds do to their files

Whatever the compiler does, a build leaves the unit of a path as it was, or it is the unit that is
built: then its path is forgotten after a success, and its file is gone after a failure. So a unit
that is kept open is the one in its file, or else its file is gone.
-/

namespace TemporalDB

open FileTree

variable {config : Configuration} {failed failed' : Prop} {files files' : FileTree} {l l' : Loader}
  {c : BuildCache} {name other : String} {text : String} {place : List String} {path : Path}
  {u : CompiledUnit} {source : Option String}

/-- The unit of the definition and that of a query are one file only if their paths are the same. -/
def Configuration.Unaliased (config : Configuration) : Prop :=
  ∀ (files : FileTree) (text : String) (place : List String),
    files.place (config.artifactPath config.definitionName) = .ok place →
    files.place (config.artifactPath (Fingerprint.of text).artifactName) = .ok place →
    (config.artifactPath config.definitionName).parts =
      (config.artifactPath (Fingerprint.of text).artifactName).parts

/-- A unit that is kept open although its file is gone: that of the definition. -/
structure Orphaned (config : Configuration) (files : FileTree) (o : OpenUnit) : Prop where
  definition : o.path.parts = (config.artifactPath config.definitionName).parts
  gone : ∀ bytes, files.read o.path ≠ .ok bytes
  made : files.createDirectories config.workDir = .ok files

/-- A unit that is kept open is the one in its file, unless a build failed and its file is gone. -/
structure Attended (config : Configuration) (failed : Prop) (files : FileTree) (l : Loader) :
    Prop where
  built : ∀ parts o, l.kept.find? parts = some o → o.path.parts = parts ∧
    ∃ name, IsBuilt config name ∧ o.path = config.artifactPath name
  current : ∀ parts o, l.kept.find? parts = some o →
    Loader.readUnit files o.path = .ok o.unit ∨ failed ∧ Orphaned config files o

/-! ## Paths of units -/

/-- A definition with a plain name is no other path of the unit of a query. -/
theorem Configuration.unaliased_of_plain (plain : '/' ∉ config.definitionName.toList) :
    config.Unaliased := by
  intro files text place definition query
  have named : IsFileName (config.definitionName ++ ".unit") :=
    isFileName_append plain (by decide) (by decide)
  obtain ⟨-, -, w, -, rfl⟩ := (place_join_eq_ok_iff named).mp definition
  obtain ⟨-, w', -, same⟩ := exists_of_place_unit query
  have names : config.definitionName ++ ".unit" = (Fingerprint.of text).artifactName ++ ".unit" :=
    (List.append_singleton_inj.mp same).2
  rw [append_inj names]

/-- **Units that are one file have one path.** -/
theorem Configuration.Unaliased.parts_eq (unaliased : config.Unaliased)
    (built : IsBuilt config name) (built' : IsBuilt config other)
    (hplace : files.place (config.artifactPath name) = .ok place)
    (hplace' : files.place (config.artifactPath other) = .ok place) :
    (config.artifactPath name).parts = (config.artifactPath other).parts := by
  rcases built with rfl | ⟨text, rfl⟩ <;> rcases built' with rfl | ⟨text', rfl⟩
  · rfl
  · exact unaliased files text' place hplace hplace'
  · exact (unaliased files text place hplace' hplace).symm
  · obtain ⟨-, w, -, rfl⟩ := exists_of_place_unit hplace
    obtain ⟨-, w', -, same⟩ := exists_of_place_unit hplace'
    have names : unitName text = unitName text' :=
      (List.append_singleton_inj.mp same).2
    rw [of_eq_of_unitName_eq names]

/-! ## Reading units -/

theorem readUnit_mono (h : ∀ bytes, files.read path = .ok bytes → files'.read path = .ok bytes)
    (read : Loader.readUnit files path = .ok u) : Loader.readUnit files' path = .ok u := by
  obtain ⟨bytes, hread, decoded⟩ := Loader.readUnit_eq_ok_iff.mp read
  exact Loader.readUnit_eq_ok_iff.mpr ⟨bytes, h bytes hread, decoded⟩

/-! ## Builds and removals -/

theorem read_discard_artifact (files : FileTree) (unaliased : config.Unaliased) (built : IsBuilt config name)
    (built' : IsBuilt config other) :
    (∀ bytes, (files.discard (config.artifactPath name)).read (config.artifactPath other) =
        .ok bytes ↔ files.read (config.artifactPath other) = .ok bytes) ∨
      (config.artifactPath name).Legal ∧
      (config.artifactPath other).parts = (config.artifactPath name).parts ∧
      ∀ bytes, (files.discard (config.artifactPath name)).read (config.artifactPath other) ≠
        .ok bytes := by
  obtain ⟨q, base, -, named, -, path⟩ := config.exists_paths name
  have agrees := agreesBut_discard (t := files) (p := q) named
  rw [← path] at agrees
  by_cases one : ∃ place, files.place (config.artifactPath other) = .ok place ∧
      files.place (config.artifactPath name) = .ok place
  · obtain ⟨place, hplace, hplace'⟩ := one
    refine Or.inr ⟨(walkFrom_eq_ok_iff.mp hplace').1,
      unaliased.parts_eq built' built hplace hplace', ?_⟩
    intro bytes hread
    obtain ⟨place', found, hnode⟩ := read_eq_ok_iff.mp hread
    cases hplace.symm.trans (agrees.place_iff.mp found)
    have here := look_eq_of_place (agrees.place_iff.mpr hplace')
    rw [hnode] at here
    -- a directory is not removed, but neither can it be read
    by_cases free : files.look (config.artifactPath name) = some .directory
    · have still := agrees.look_eq_directory_iff.mpr free
      rw [here] at still
      cases still
    · rw [path] at here free
      rw [look_discard named free] at here
      cases here
  · refine Or.inl fun bytes => agrees.read_iff ?_
    intro place hplace hplace'
    exact one ⟨place, hplace, hplace'⟩

/-- **A build leaves the unit of a name as it was, unless it is the unit that is built**: then it is
replaced, or it is gone. -/
theorem read_compileStored [Tags] (unaliased : config.Unaliased) (confined : c.compiler.Confined)
    (hconfig : c.config = config) (built : IsBuilt config name)
    (built' : IsBuilt config other) {result : Except BuildError BuildStatus} {after : BuildCache}
    (done : c.compileStored source name = (result, after)) :
    ((∀ bytes, c.files.read (config.artifactPath other) = .ok bytes →
        after.files.read (config.artifactPath other) = .ok bytes) ∧
      (c.files.createDirectories config.workDir = .ok c.files →
        after.files.createDirectories config.workDir = .ok after.files ∧
        ∀ bytes, after.files.read (config.artifactPath other) = .ok bytes →
          c.files.read (config.artifactPath other) = .ok bytes)) ∨
      (config.artifactPath name).Legal ∧
      (config.artifactPath other).parts = (config.artifactPath name).parts ∧
      (result = .ok .compiled ∨
        (∀ bytes, after.files.read (config.artifactPath other) ≠ .ok bytes) ∧
          after.files.createDirectories config.workDir = .ok after.files) := by
  subst hconfig
  rcases BuildCache.compileStored_cases source name with
    ⟨ran, prepares, compiled⟩ | ⟨-, e, files, abandons, failed⟩
  · obtain ⟨before, since, made⟩ := prepares.read_artifact other
    obtain ⟨made₀, hmade₀, agrees₀, -⟩ := prepares.agrees
    obtain ⟨q, base, -, named, -, path⟩ := c.config.exists_paths name
    rw [compiled] at done
    rcases BuildCache.compile_cases (c := { c with files := ran }) confined name with
      ⟨target, bytes, -, htarget, free, done'⟩ | ⟨e, done'⟩
    · cases done'.symm.trans done
      -- either both paths lead to one place, and the new unit is there, or the other is not touched
      by_cases one : ran.place (c.config.artifactPath other) = .ok target
      · exact Or.inr ⟨(walkFrom_eq_ok_iff.mp htarget).1,
          unaliased.parts_eq built' built one htarget, Or.inl rfl⟩
      · have agrees := agreesBut_assign (some bytes) named (path ▸ htarget) free
        have same : ∀ content, (ran.assign target (some bytes)).read
            (c.config.artifactPath other) = .ok content ↔
            ran.read (c.config.artifactPath other) = .ok content := by
          intro content
          apply agrees.read_iff
          rintro place hplace rfl
          exact one hplace
        refine Or.inl ⟨fun content h => (same content).mpr (before content h), fun there =>
          ⟨createDirectories_again made agrees.keeps, fun content h => ?_⟩⟩
        exact since there content ((same content).mp h)
    · cases done'.symm.trans done
      have agrees := agreesBut_discard (t := ran) (p := q) named
      rw [← path] at agrees
      have again := createDirectories_again made agrees.keeps
      rcases read_discard_artifact ran unaliased built built' with
        same | ⟨legal, parts, gone⟩
      · refine Or.inl ⟨fun content h => (same content).mpr (before content h), fun there =>
          ⟨again, fun content h => ?_⟩⟩
        exact since there content ((same content).mp h)
      · exact Or.inr ⟨legal, parts, Or.inr ⟨gone, again⟩⟩
  · cases (failed c.compiler).symm.trans done
    exact Or.inl (abandons.read_artifact other)

/-- A query is compiled only where there is no unit of it, under whatever path. -/
theorem read_ne_of_lookup (hconfig : c.config = config)
    (absent : c.lookup (Fingerprint.of text).artifactName = none)
    (same : (config.artifactPath other).parts =
      (config.artifactPath (Fingerprint.of text).artifactName).parts)
    (legal : (config.artifactPath (Fingerprint.of text).artifactName).Legal) :
    ∀ bytes, c.files.read (config.artifactPath other) ≠ .ok bytes := by
  intro bytes hread
  obtain ⟨place, hplace, hnode⟩ := read_eq_ok_iff.mp hread
  obtain ⟨q, base, -, named, -, path⟩ := config.exists_paths other
  rw [path] at same hplace
  have here : c.files.place (c.config.artifactPath (Fingerprint.of text).artifactName) =
      .ok place := by
    rw [hconfig]
    exact place_of_parts_eq named (isFileName_unitName text) same hplace legal
  rw [(BuildCache.lookup_eq_none_iff here).mp absent] at hnode
  cases hnode

namespace Attended

theorem of_nothing (h : l.kept = .empty) : Attended config failed files l := by
  constructor
  · intro parts o kept
    rw [h] at kept
    cases kept
  · intro parts o kept
    rw [h] at kept
    cases kept

theorem mono (attended : Attended config failed files l) (h : failed → failed') :
    Attended config failed' files l :=
  ⟨attended.built, fun parts o kept => (attended.current parts o kept).imp_right
    fun ⟨hfailed, orphaned⟩ => ⟨h hfailed, orphaned⟩⟩

/-- A definition that is not open cannot have lost its file. -/
theorem of_forgotten (attended : Attended config failed files l)
    (h : l.kept.find? (config.artifactPath config.definitionName).parts = none) :
    Attended config failed' files l := by
  refine ⟨attended.built, fun parts o kept => Or.inl ?_⟩
  rcases attended.current parts o kept with current | ⟨-, definition, -⟩
  · exact current
  · rw [(attended.built parts o kept).1] at definition
    rw [definition, h] at kept
    cases kept

theorem of_kept (attended : Attended config failed files l)
    (h : ∀ parts o, l'.kept.find? parts = some o → l.kept.find? parts = some o) :
    Attended config failed files l' :=
  ⟨fun parts o kept => attended.built parts o (h parts o kept),
    fun parts o kept => attended.current parts o (h parts o kept)⟩

/-- **Loading keeps at most the unit in the file open.** -/
theorem load (attended : Attended config failed files l) (built : IsBuilt config name)
    (symbols : List String) :
    Attended config failed files (l.load files (config.artifactPath name) symbols).2 := by
  rcases l.load_cases files (config.artifactPath name) symbols with ⟨o, loads, loaded⟩ | ⟨e, failed⟩
  · rw [loaded]
    constructor
    · intro parts kept hkept
      rcases Loader.find?_keep hkept with old | ⟨rfl, rfl, fresh⟩
      · exact attended.built parts kept old
      · rw [Loader.path_of_find loads.found fresh]
        exact ⟨rfl, name, built, rfl⟩
    · intro parts kept hkept
      rcases Loader.find?_keep hkept with old | ⟨rfl, rfl, fresh⟩
      · exact attended.current parts kept old
      · rw [Loader.path_of_find loads.found fresh]
        exact Or.inl (Loader.readUnit_of_find loads.found fresh)
  · rw [failed]
    exact attended

/-- **A unit that was built is open no more** once its path was forgotten. -/
theorem build_ok [Tags] (attended : Attended config failed c.files l)
    (unaliased : config.Unaliased)
    (confined : c.compiler.Confined) (hconfig : c.config = config)
    (built : IsBuilt config name) {status : BuildStatus} {after : BuildCache}
    (done : c.compileStored source name = (.ok status, after)) :
    Attended config failed after.files (l.invalidate (config.artifactPath name)) := by
  refine ⟨fun parts o kept => attended.built parts o (Loader.find?_invalidate kept).2, ?_⟩
  intro parts o kept
  obtain ⟨ne, held⟩ := Loader.find?_invalidate kept
  obtain ⟨hparts, other, built', path⟩ := attended.built parts o held
  rcases read_compileStored unaliased confined hconfig built built' done with
    ⟨before, since⟩ | ⟨-, same, -⟩
  · rw [← path] at before since
    rcases attended.current parts o held with current | ⟨hfailed, definition, gone, made⟩
    · exact Or.inl (readUnit_mono before current)
    · obtain ⟨made', since'⟩ := since made
      exact Or.inr ⟨hfailed, definition, fun bytes hread => gone bytes (since' bytes hread), made'⟩
  · rw [← hparts, path] at ne
    exact absurd same ne

/-- **When a build failed, only the unit of the definition can be open without its file**, if no unit
was open for the name, or only one whose file was gone already. -/
theorem build_error [Tags] (attended : Attended config failed c.files l)
    (unaliased : config.Unaliased)
    (confined : c.compiler.Confined) (hconfig : c.config = config)
    (built : IsBuilt config name) {e : BuildError} {after : BuildCache}
    (done : c.compileStored source name = (.error e, after)) (still : failed → failed')
    (exposed : (config.artifactPath name).Legal →
      ∀ o, l.kept.find? (config.artifactPath name).parts = some o →
        (∀ bytes, c.files.read o.path ≠ .ok bytes) ∨ failed' ∧ name = config.definitionName) :
    Attended config failed' after.files l := by
  refine ⟨attended.built, ?_⟩
  intro parts o held
  obtain ⟨hparts, other, built', path⟩ := attended.built parts o held
  rcases read_compileStored unaliased confined hconfig built built' done with
    ⟨before, since⟩ | ⟨legal, same, done' | ⟨gone, made⟩⟩
  · rw [← path] at before since
    rcases attended.current parts o held with current | ⟨hfailed, definition, gone, made⟩
    · exact Or.inl (readUnit_mono before current)
    · obtain ⟨made', since'⟩ := since made
      exact Or.inr ⟨still hfailed, definition, fun bytes hread => gone bytes (since' bytes hread),
        made'⟩
  · cases done'
  · rw [← path] at same gone
    rw [← hparts, same] at held
    rcases exposed legal o held with nothing | ⟨hfailed, rfl⟩
    · rcases attended.current _ o held with current | ⟨hfailed, definition, -, -⟩
      · obtain ⟨bytes, hread, -⟩ := Loader.readUnit_eq_ok_iff.mp current
        exact absurd hread (nothing bytes)
      · exact Or.inr ⟨still hfailed, definition, gone, made⟩
    · exact Or.inr ⟨hfailed, same, gone, made⟩

/-- **A unit that was removed is open no more** once its path was forgotten. -/
theorem discard (attended : Attended config failed files l) (unaliased : config.Unaliased)
    (built : IsBuilt config name) : Attended config failed
      (files.discard (config.artifactPath name)) (l.invalidate (config.artifactPath name)) := by
  refine ⟨fun parts o kept => attended.built parts o (Loader.find?_invalidate kept).2, ?_⟩
  intro parts o kept
  obtain ⟨ne, held⟩ := Loader.find?_invalidate kept
  obtain ⟨hparts, other, built', path⟩ := attended.built parts o held
  obtain ⟨q, base, -, named, -, path'⟩ := config.exists_paths name
  have agrees := agreesBut_discard (t := files) (p := q) named
  rw [← path'] at agrees
  rcases read_discard_artifact files unaliased built built' with same | ⟨-, same, -⟩
  · rw [← path] at same
    rcases attended.current parts o held with current | ⟨hfailed, definition, gone, made⟩
    · exact Or.inl (readUnit_mono (fun bytes => (same bytes).mpr) current)
    · exact Or.inr ⟨hfailed, definition, fun bytes hread => gone bytes ((same bytes).mp hread),
        createDirectories_again made agrees.keeps⟩
  · rw [← hparts, path] at ne
    exact absurd same ne

end Attended

end TemporalDB
