import TemporalDB.Proofs.BuildCache
import TemporalDB.Proofs.FileTree.Frame

/-!
# What a build changes

A build makes the work directory, stores the listing if one is given, and then has it compiled.
Besides directories that lead to the work directory it changes nothing but the listing and the unit,
and leaves a temporary file at most if the listing cannot be stored.
-/

namespace TemporalDB

open FileTree

namespace BuildCache

variable [Tags] {c : BuildCache} {t ran made : FileTree} {config : Configuration} {name : String}
  {source given : Option String} {place target : List String} {bytes : ByteArray} {e : BuildError}

/-! ## Changes of files -/

theorem agreesBut_compile (confined : c.compiler.Confined) (name : String) : c.files.AgreesBut (c.compile name).2.files
      (c.files.place (c.config.artifactPath name) = .ok ·) := by
  obtain ⟨q, base, -, named, -, path⟩ := c.config.exists_paths name
  rcases compile_cases confined name with ⟨target, bytes, -, htarget, free, done⟩ | ⟨e, failed⟩
  · rw [done, htarget]
    rw [path] at htarget
    refine (agreesBut_assign _ named htarget free).mono ?_
    rintro _ rfl
    rfl
  · rw [failed, path]
    exact agreesBut_discard named

/-- Storing a listing changes nothing else. If it fails, it changes nothing but temporary files. -/
theorem agreesBut_publish (config : Configuration) (name listing : String) :
    (∃ target, made.place (config.sourcePath name) = .ok target ∧
      publish made (config.sourcePath name) listing.toUTF8 =
        (.ok (), made.assign target (some listing.toUTF8)) ∧
      made.AgreesBut (made.assign target (some listing.toUTF8)) (· = target)) ∨
    ∃ e files, publish made (config.sourcePath name) listing.toUTF8 = (.error e, files) ∧
      made.AgreesBut files IsTemporary := by
  obtain ⟨q, base, named, -, path, -⟩ := config.exists_paths name
  rw [path]
  rcases publish_outcomes (p := q) listing.toUTF8 named with
    ⟨place, target, -, htarget, free, done⟩ | ⟨e, failed⟩ | ⟨e, place, hplace, -, left⟩
  · exact Or.inl ⟨target, htarget, done, agreesBut_assign _ named htarget free⟩
  · exact Or.inr ⟨e, made, failed, AgreesBut.refl made _⟩
  · refine Or.inr ⟨e, _, left, (agreesBut_temporary _ hplace).mono ?_⟩
    rintro _ rfl
    exact (place_temporary hplace).1

/-! ## The steps of a build -/

/-- The files in which the toolchain is to run: there is the work directory, and the listing is
stored if one is given. -/
def Prepares (c : BuildCache) (source : Option String) (name : String) (ran : FileTree) : Prop :=
  ∃ made, c.files.createDirectories c.config.workDir = .ok made ∧
    match source with
    | none => ran = made
    | some listing => publish made (c.config.sourcePath name) listing.toUTF8 = (.ok (), ran)

/-- The files after the toolchain could not be run: there are some of the directories that lead to
the work directory, or there is the work directory, and there may be a temporary file. -/
def Abandons (c : BuildCache) (files : FileTree) : Prop :=
  (∃ e, c.files.pave c.config.workDir = (.error e, files)) ∨
    ∃ made, c.files.createDirectories c.config.workDir = .ok made ∧ made.AgreesBut files IsTemporary

/-- **A build compiles in the files that it prepares, or fails before.** -/
theorem compileStored_cases (source : Option String) (name : String) :
    (∃ ran, c.Prepares source name ran ∧
      c.compileStored source name = { c with files := ran }.compile name) ∨
    (∀ ran, ¬ c.Prepares source name ran) ∧ ∃ e files, c.Abandons files ∧
      ∀ compiler, { c with compiler := compiler }.compileStored source name =
        (.error e, { c with compiler := compiler, files := files }) := by
  unfold compileStored
  rcases pave_cases c.files c.config.workDir with
    ⟨made, hmade, paves⟩ | ⟨e, left, failed, paves⟩
  · cases source with
    | none =>
        refine Or.inl ⟨made, ⟨made, hmade, rfl⟩, ?_⟩
        rw [paves]
    | some listing =>
        rcases agreesBut_publish c.config name listing with
          ⟨target, -, stored, -⟩ | ⟨e, files, failed, agrees⟩
        · refine Or.inl ⟨_, ⟨made, hmade, stored⟩, ?_⟩
          rw [paves]
          dsimp only
          rw [stored]
        · refine Or.inr ⟨?_, e, files, Or.inr ⟨made, hmade, agrees⟩, ?_⟩
          · -- the directories are made in one way only, and there the listing could not be stored
            rintro ran ⟨made', h, stored⟩
            cases hmade.symm.trans h
            exact absurd (failed.symm.trans stored) (by simp)
          · intro compiler
            dsimp only
            rw [paves]
            dsimp only
            rw [failed]
  · refine Or.inr ⟨?_, .file c.config.workDir e, left, Or.inl ⟨e, paves⟩, ?_⟩
    · rintro ran ⟨made, h, -⟩
      exact absurd (failed.symm.trans h) (by simp)
    · intro compiler
      dsimp only
      rw [paves]

/-- The listing is stored where the toolchain is to run, and nothing else has changed. -/
theorem Prepares.agrees (prepares : c.Prepares source name ran) :
    ∃ made, c.files.createDirectories c.config.workDir = .ok made ∧
      made.AgreesBut ran (made.place (c.config.sourcePath name) = .ok ·) ∧
      ∀ listing ∈ source, ran.read (c.config.sourcePath name) = .ok listing.toUTF8 := by
  obtain ⟨made, hmade, stored⟩ := prepares
  refine ⟨made, hmade, ?_⟩
  cases source with
  | none =>
      cases stored
      exact ⟨AgreesBut.refl _ _, by simp⟩
  | some listing =>
      rcases agreesBut_publish c.config name
        listing with ⟨target, htarget, done, agrees⟩ | ⟨e, files, failed, -⟩
      · cases done.symm.trans stored
        refine ⟨agrees.mono ?_, ?_⟩
        · rintro _ rfl
          exact htarget
        · intro listing' same
          cases same
          obtain ⟨q, base, named, -, path, -⟩ := c.config.exists_paths name
          refine read_eq_ok_iff.mpr ⟨target, agrees.place_iff.mpr htarget, ?_⟩
          rw [path] at htarget
          obtain ⟨-, -, w, -, rfl⟩ := (place_join_eq_ok_iff named).mp htarget
          exact node?_assign_self
      · exact absurd (failed.symm.trans stored) (by simp)

theorem eq_compiled_of_compileStored {status : BuildStatus} {after : BuildCache}
    (done : c.compileStored source name = (.ok status, after)) :
    status = .compiled := by
  rcases compileStored_cases source name with ⟨ran, -, compiled⟩ | ⟨-, e, files, -, failed⟩
  · rw [compiled, compile_eq rfl] at done
    split at done
    · cases done
    · cases done
      rfl
  · cases (failed c.compiler).symm.trans done

/-! ## Compilers that do the same -/

/-- Compiling goes by what the compiler does with the stored listing. -/
theorem compile_congr {compiler : Compiler} (same : compiler c.files (c.config.sourcePath name)
    (c.files.temporary c.config.workDir name) = c.compiler c.files (c.config.sourcePath name)
      (c.files.temporary c.config.workDir name)) : { c with compiler }.compile name =
    ((c.compile name).1, { (c.compile name).2 with compiler }) := by
  cases made : c.compiler c.files (c.config.sourcePath name)
      (c.files.temporary c.config.workDir name) with
  | mk result after =>
      rw [compile_eq (c := { c with compiler }) (same.trans made), compile_eq made]
      cases result with
      | error e => rfl
      | ok _ =>
          dsimp only [bind, Except.bind]
          cases after.rename (c.files.temporary c.config.workDir name)
              (c.config.artifactPath name) with
          | error e => rfl
          | ok moved => rfl

theorem compileStored_congr (compiler : Compiler) (source : Option String) (name : String)
    (same : ∀ ran, c.Prepares source name ran →
    compiler ran (c.config.sourcePath name) (ran.temporary c.config.workDir name) =
      c.compiler ran (c.config.sourcePath name) (ran.temporary c.config.workDir name)) :
    { c with compiler }.compileStored source name =
      ((c.compileStored source name).1, { (c.compileStored source name).2 with compiler }) := by
  unfold compileStored
  dsimp only
  rcases pave_cases c.files c.config.workDir with ⟨made, hmade, paves⟩ | ⟨e, left, -, paves⟩
  · rw [paves]
    cases source with
    | none => exact compile_congr (c := { c with files := made }) (same made ⟨made, hmade, rfl⟩)
    | some listing =>
        dsimp only
        cases stored : publish made (c.config.sourcePath name) listing.toUTF8 with
        | mk result ran =>
            cases result with
            | error e => rfl
            | ok _ =>
                exact compile_congr (c := { c with files := ran }) (same ran ⟨made, hmade, stored⟩)
  · rw [paves]

/-! ## Configurations that do the same -/

theorem compile_config_congr (same : config.workDir = c.config.workDir) (name : String) :
    { c with config }.compile name =
      ((c.compile name).1, { (c.compile name).2 with config }) := by
  have artifact : config.artifactPath name = c.config.artifactPath name :=
    congrArg (·.join (name ++ ".unit")) same
  have listing : config.sourcePath name = c.config.sourcePath name :=
    congrArg (·.join (name ++ ".src")) same
  cases made : c.compiler c.files (c.config.sourcePath name)
      (c.files.temporary c.config.workDir name) with
  | mk result after =>
      have made' := made
      rw [← listing, ← same] at made'
      rw [compile_eq (c := { c with config }) made', compile_eq made]
      dsimp only
      rw [same, artifact]
      cases result with
      | error e => rfl
      | ok _ =>
          dsimp only [bind, Except.bind]
          cases after.rename (c.files.temporary c.config.workDir name)
              (c.config.artifactPath name) with
          | error e => rfl
          | ok moved => rfl

theorem compileStored_config_congr (same : config.workDir = c.config.workDir)
    (source : Option String) (name : String) : { c with config }.compileStored source name =
      ((c.compileStored source name).1, { (c.compileStored source name).2 with config }) := by
  have listing : config.sourcePath name = c.config.sourcePath name :=
    congrArg (·.join (name ++ ".src")) same
  unfold compileStored
  dsimp only
  rw [same, listing]
  obtain ⟨result, made⟩ := c.files.pave c.config.workDir
  cases result with
  | error e => rfl
  | ok _ =>
      cases source with
      | none => exact compile_config_congr (c := { c with files := made }) same name
      | some text =>
          dsimp only
          cases publish made (c.config.sourcePath name) text.toUTF8 with
          | mk result ran =>
              cases result with
              | error e => rfl
              | ok _ => exact compile_config_congr (c := { c with files := ran }) same name

/-- A compiler that fails on the stored listing leaves no unit. -/
theorem compileStored_eq_error {e : BuildError} (prepares : c.Prepares source name ran)
    (fails : ∀ ran, c.Prepares source name ran →
      c.compiler ran (c.config.sourcePath name) (ran.temporary c.config.workDir name) =
        (.error e, ran)) : ∃ ran, c.Prepares source name ran ∧ c.compileStored source name =
      (.error e, { c with
        files := ran.discard (c.config.artifactPath name), builds := c.builds + 1 }) := by
  rcases compileStored_cases source name with ⟨ran, prepares, compiled⟩ | ⟨unprepared, -⟩
  · refine ⟨ran, prepares, ?_⟩
    rw [compiled, compile_eq (c := { c with files := ran }) (fails ran prepares),
      discard_temporary]
    rfl
  · exact absurd prepares (unprepared ran)

/-! ## The unit of a name -/

omit [Tags] in
theorem place_source_ne_place_artifact {other : String}
    (hplace : t.place (config.sourcePath name) = .ok place)
    (htarget : t.place (config.artifactPath other) = .ok target) : place ≠ target := by
  obtain ⟨q, base, named, -, source, -⟩ := config.exists_paths name
  obtain ⟨q', base', -, named', -, artifact⟩ := config.exists_paths other
  rw [source] at hplace
  rw [artifact] at htarget
  obtain ⟨-, -, w, -, rfl⟩ := (place_join_eq_ok_iff named).mp hplace
  obtain ⟨-, -, w', -, rfl⟩ := (place_join_eq_ok_iff named').mp htarget
  intro same
  exact append_src_ne_append_unit ((List.append_singleton_inj.mp same).2)

theorem Compiles.read (compiles : c.Compiles name target bytes) :
    (c.files.assign target (some bytes)).read (c.config.artifactPath name) = .ok bytes := by
  obtain ⟨q, base, -, named, -, path⟩ := c.config.exists_paths name
  have htarget := compiles.place
  rw [path] at htarget ⊢
  have agrees := agreesBut_assign (some bytes) named htarget compiles.free
  refine read_eq_ok_iff.mpr ⟨target, agrees.place_iff.mpr htarget, ?_⟩
  obtain ⟨-, -, w, -, rfl⟩ := (place_join_eq_ok_iff named).mp htarget
  exact node?_assign_self

theorem not_isTemporary_place_artifact (htarget : t.place (config.artifactPath name) = .ok target) :
    ¬ IsTemporary target := by
  obtain ⟨q, base, -, named, -, artifact⟩ := config.exists_paths name
  rw [artifact] at htarget
  obtain ⟨-, -, w, -, rfl⟩ := (place_join_eq_ok_iff named).mp htarget
  exact not_isTemporary getLast?_append_unit

/-! ## Units and what a build does to them -/

/-- Units are read as before where the toolchain is to run. -/
theorem Prepares.read_artifact (prepares : c.Prepares source name ran)
    (other : String) : (∀ bytes, c.files.read (c.config.artifactPath other) = .ok bytes →
        ran.read (c.config.artifactPath other) = .ok bytes) ∧
      (c.files.createDirectories c.config.workDir = .ok c.files →
        ∀ bytes, ran.read (c.config.artifactPath other) = .ok bytes →
          c.files.read (c.config.artifactPath other) = .ok bytes) ∧
      ran.createDirectories c.config.workDir = .ok ran := by
  obtain ⟨made, hmade, agrees, -⟩ := prepares.agrees
  have same : ∀ bytes, ran.read (c.config.artifactPath other) = .ok bytes ↔
      made.read (c.config.artifactPath other) = .ok bytes := by
    intro bytes
    apply agrees.read_iff
    intro target htarget hplace
    exact place_source_ne_place_artifact hplace htarget rfl
  refine ⟨?_, ?_, createDirectories_again hmade agrees.keeps⟩
  · intro bytes hread
    exact (same bytes).mpr ((createDirectories_eq_ok hmade).1.read hread)
  · intro there bytes hread
    cases hmade.symm.trans there
    exact (same bytes).mp hread

/-- Units are read as before after the toolchain could not be run. -/
theorem Abandons.read_artifact {files : FileTree} (abandons : c.Abandons files) (other : String) :
    (∀ bytes, c.files.read (c.config.artifactPath other) = .ok bytes →
        files.read (c.config.artifactPath other) = .ok bytes) ∧
      (c.files.createDirectories c.config.workDir = .ok c.files →
        files.createDirectories c.config.workDir = .ok files ∧
        ∀ bytes, files.read (c.config.artifactPath other) = .ok bytes →
          c.files.read (c.config.artifactPath other) = .ok bytes) := by
  rcases abandons with ⟨e, paves⟩ | ⟨made, hmade, agrees⟩
  · have grows := grows_pave c.files c.config.workDir
    rw [paves] at grows
    refine ⟨fun bytes => grows.read, fun there => ?_⟩
    cases (createDirectories_eq_ok_iff.mp there).symm.trans paves
  have same : ∀ bytes, files.read (c.config.artifactPath other) = .ok bytes ↔
      made.read (c.config.artifactPath other) = .ok bytes := fun bytes =>
    agrees.read_iff fun target htarget => not_isTemporary_place_artifact htarget
  constructor
  · intro bytes hread
    exact (same bytes).mpr ((createDirectories_eq_ok hmade).1.read hread)
  · intro there
    cases hmade.symm.trans there
    exact ⟨createDirectories_again there agrees.keeps, fun bytes => (same bytes).mp⟩

end BuildCache

end TemporalDB
