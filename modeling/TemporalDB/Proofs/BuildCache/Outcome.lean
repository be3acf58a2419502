import TemporalDB.Proofs.BuildCache.Frame
import TemporalDB.Proofs.WorkDirectory.Empty

/-!
# How a build comes out

If the work directory cannot be made or the listing not be stored, the toolchain does not run and
the unit is as it was. If the toolchain runs, what it wrote is published complete, or there is no
unit.
-/

namespace TemporalDB

open FileTree

namespace BuildCache

/-! ## Calls that build -/

/-- The toolchain runs in a call: if it fails, then the call fails with its failure. -/
def Runs (call : BuildCache → Except BuildError BuildStatus × BuildCache) (c : BuildCache) : Prop :=
  ∀ e, (call { c with compiler := fun files _ _ => (.error e, files) }).1 = .error e

variable {c : BuildCache} {call call' : BuildCache → Except BuildError BuildStatus × BuildCache}

theorem runs_congr (same : ∀ compiler, call' { c with compiler } = call { c with compiler }) :
    Runs call' c ↔ Runs call c := by
  unfold Runs
  simp only [same]

section

variable [Tags] {name : String} {source given : Option String} {ran : FileTree}
  {target : List String}

/-- What the compiler wrote, complete, is the unit of a name. -/
structure Publication (c : BuildCache) (name : String) (given : Option String)
    (ran made after : FileTree) (bytes : ByteArray) : Prop where
  compiled : c.compiler ran (c.config.sourcePath name) (ran.temporary c.config.workDir name) =
    (.ok (), made)
  wrote : made.read (ran.temporary c.config.workDir name) = .ok bytes
  unit : after.read (c.config.artifactPath name) = .ok bytes
  /-- The listing that it was compiled from is the one that is stored now. -/
  listing : ∀ stored, ran.read (c.config.sourcePath name) = .ok stored ↔
    after.read (c.config.sourcePath name) = .ok stored
  given : ∀ listing ∈ given, after.read (c.config.sourcePath name) = .ok listing.toUTF8

/-- How a call comes out that is to build a name, from a listing if one is given: its result and the
cache after it. -/
inductive Outcome (call : BuildCache → Except BuildError BuildStatus × BuildCache) (c : BuildCache)
    (name : String) (given : Option String) : Except BuildError BuildStatus × BuildCache → Prop
  | compiled {after : BuildCache} {ran made : FileTree} {bytes : ByteArray} (runs : Runs call c)
    (builds : after.builds = c.builds + 1)
    (publication : Publication c name given ran made after.files bytes) :
    Outcome call c name given (.ok .compiled, after)
  /-- Nothing changes. This never happens to the definition, or without a listing. -/
  | cached (idle : ¬ Runs call c) (other : name ≠ c.config.definitionName)
    (offered : given.isSome) : Outcome call c name given (.ok .cached, c)
  /-- The toolchain ran, and there is no unit. -/
  | failed {e : BuildError} {after : BuildCache} (runs : Runs call c)
    (builds : after.builds = c.builds + 1)
    (gone : after.files.look (c.config.artifactPath name) = none) :
    Outcome call c name given (.error e, after)
  /-- The toolchain did not run, and the unit is as it was. -/
  | refused {e : BuildError} {after : BuildCache} (idle : ¬ Runs call c)
    (builds : after.builds = c.builds)
    (same : c.files.SameAt after.files (c.config.artifactPath name)) :
    Outcome call c name given (.error e, after)

/-- **The toolchain runs where the files for it can be prepared.** -/
theorem runs_compileStored_iff :
    Runs (·.compileStored source name) c ↔ ∃ ran, c.Prepares source name ran := by
  constructor
  · intro runs
    rcases compileStored_cases source name with ⟨ran, prepares, -⟩ | ⟨-, e, files, -, failed⟩
    · exact ⟨ran, prepares⟩
    · -- A failure that comes before the toolchain cannot be every failure of it.
      have every : ∀ e', e = e' := by
        intro e'
        have fails := runs e'
        dsimp only at fails
        rw [failed] at fails
        exact Except.error.inj fails
      cases (every (.toolchain none "")).symm.trans (every (.toolchain (some 0) ""))
  · rintro ⟨ran, prepares⟩ e
    rcases compileStored_cases (c := { c with compiler := fun files _ _ => (.error e, files) })
      source name with ⟨ran', -, compiled⟩ | ⟨unprepared, -⟩
    · dsimp only
      rw [compiled, compile_eq rfl]
      rfl
    · exact absurd prepares (unprepared ran)

theorem Abandons.sameAt {files : FileTree} (abandons : c.Abandons files)
    (free : (c.files.pave c.config.workDir).2.look (c.config.artifactPath name) ≠
      some .directory) : c.files.SameAt files (c.config.artifactPath name) := by
  have same := (grows_pave c.files c.config.workDir).sameAt free
  rcases abandons with ⟨e, paves⟩ | ⟨made, hmade, agrees⟩
  · rwa [paves] at same
  · rw [createDirectories_eq_ok_iff.mp hmade] at same
    exact same.trans (agrees.sameAt fun place hplace => not_isTemporary_place_artifact hplace)
      (fun place => agrees.place_iff.mp)

theorem Prepares.publication (prepares : c.Prepares given name ran)
    {bytes : ByteArray} (makes : Makes { c with files := ran } name bytes)
    (htarget : ran.place (c.config.artifactPath name) = .ok target)
    (free : ran.node? target ≠ some .directory) :
    ∃ made, Publication c name given ran made (ran.assign target (some bytes)) bytes := by
  obtain ⟨made, compiled, wrote⟩ := makes
  obtain ⟨q, base, -, named, -, path⟩ := c.config.exists_paths name
  rw [path] at htarget
  have agrees := agreesBut_assign (some bytes) named htarget free
  rw [← path] at htarget
  have listing : ∀ stored, (ran.assign target (some bytes)).read (c.config.sourcePath name) =
      .ok stored ↔ ran.read (c.config.sourcePath name) = .ok stored := by
    intro stored
    apply agrees.read_iff
    intro place hplace
    exact place_source_ne_place_artifact hplace htarget
  refine ⟨made, compiled, wrote, ?_, fun stored => (listing stored).symm, ?_⟩
  · refine read_eq_ok_iff.mpr ⟨target, agrees.place_iff.mpr htarget, ?_⟩
    rw [path] at htarget
    obtain ⟨-, -, w, -, rfl⟩ := (place_join_eq_ok_iff named).mp htarget
    exact node?_assign_self
  · intro source hsource
    obtain ⟨-, -, -, stored⟩ := prepares.agrees
    exact (listing _).mpr (stored source hsource)

theorem outcome_compileStored (confined : c.compiler.Confined)
    (free : (c.files.pave c.config.workDir).2.look (c.config.artifactPath name) ≠
      some .directory) :
    Outcome (·.compileStored given name) c name given (c.compileStored given name) := by
  rcases compileStored_cases given name with
    ⟨ran, prepares, compiled⟩ | ⟨unprepared, e, files, abandons, failed⟩
  · have runs : Runs (·.compileStored given name) c :=
      runs_compileStored_iff.mpr ⟨ran, prepares⟩
    obtain ⟨made, hmade, agrees, -⟩ := prepares.agrees
    rw [compiled]
    rcases compile_cases (c := { c with files := ran }) confined name with
      ⟨target, bytes, makes, htarget, free, done⟩ | ⟨e, failed⟩
    · obtain ⟨made, publication⟩ := prepares.publication makes htarget free
      rw [done]
      exact .compiled runs rfl publication
    · rw [failed]
      -- what failed is discarded, since no directory stands in the way
      refine .failed runs rfl ?_
      have free' : ran.look (c.config.artifactPath name) ≠ some .directory := by
        rw [createDirectories_eq_ok_iff.mp hmade] at free
        exact mt agrees.look_eq_directory_iff.mp free
      obtain ⟨q, base, -, named, -, path⟩ := c.config.exists_paths name
      rw [path] at free' ⊢
      exact look_discard named free'
  · have idle : ¬ Runs (·.compileStored given name) c := by
      rw [runs_compileStored_iff]
      rintro ⟨ran, prepares⟩
      exact unprepared ran prepares
    have here : c.compileStored given name = (.error e, { c with files }) := failed c.compiler
    rw [here]
    exact .refused idle rfl (abandons.sameAt free)

/-! ## Builds that are answered from what is there -/

/-- A build of the name is not answered from what is there. -/
def Misses (c : BuildCache) (name : String) : Prop :=
  name = c.config.definitionName ∨ c.lookup name = none

theorem build_of_misses {source : String} (misses : c.Misses name) :
    c.build source name = c.compileStored (some source) name := by
  rcases misses with rfl | absent
  · exact build_definition
  · exact build_of_lookup absent

theorem build_of_not_misses {source : String} (hit : ¬ c.Misses name) :
    c.build source name = (.ok .cached, c) := by
  obtain ⟨other, there⟩ := not_or.mp hit
  refine if_pos ?_
  simp [alwaysRebuilds, other, Option.isSome_iff_ne_none, there]

/-- **The toolchain runs in a build that is not answered from what is there**, where the files for
it can be prepared. -/
theorem runs_build_iff {source : String} : Runs (·.build source name) c ↔
    c.Misses name ∧ ∃ ran, c.Prepares (some source) name ran := by
  by_cases misses : c.Misses name
  · rw [and_iff_right misses, ← runs_compileStored_iff]
    exact runs_congr fun compiler => build_of_misses (c := { c with compiler }) misses
  · refine iff_of_false (fun runs => ?_) (fun h => misses h.1)
    let c' : BuildCache := { c with compiler := fun files _ _ => (.error (.toolchain none ""), files) }
    have cached : c'.build source name = (.ok .cached, c') := build_of_not_misses misses
    cases (congrArg Prod.fst cached).symm.trans (runs (.toolchain none ""))

/-! ## How builds come out -/

theorem Outcome.congr {result : Except BuildError BuildStatus × BuildCache}
    (outcome : Outcome call c name given result)
    (same : ∀ compiler, call' { c with compiler } = call { c with compiler }) :
    Outcome call' c name given result := by
  have runs := runs_congr same
  cases outcome with
  | compiled ran builds publication => exact .compiled (runs.mpr ran) builds publication
  | cached idle other offered => exact .cached (mt runs.mp idle) other offered
  | failed ran builds gone => exact .failed (runs.mpr ran) builds gone
  | refused idle builds unchanged => exact .refused (mt runs.mp idle) builds unchanged

theorem Outcome.publication {after : BuildCache}
    (outcome : Outcome call c name given (.ok .compiled, after)) :
    ∃ ran made bytes, Publication c name given ran made after.files bytes := by
  cases outcome with
  | compiled runs builds publication => exact ⟨_, _, _, publication⟩

/-- **A build publishes a complete unit or none.** Whatever the compiler does, as long as it writes
nothing but its unit, a compiled unit is what it wrote from the listing that is stored now; what is
cached changed nothing, and is neither the definition nor built again; once the toolchain ran, a
failure leaves no unit, and before, the unit that there was. Builds count how often it ran. It runs
where the work directory can be made and the listing be stored, and for a build where there is no
unit or the name is that of the definition. All this as long as no directory has the path of the
unit once the directories for the work directory have been made. -/
theorem build_publishes_complete (source : String) (confined : c.compiler.Confined)
    (free : (c.files.pave c.config.workDir).2.look (c.config.artifactPath name) ≠
      some .directory) :
    Outcome (·.build source name) c name (some source) (c.build source name) ∧
      Outcome (·.rebuild name) c name none (c.rebuild name) ∧
      (Runs (·.build source name) c ↔
        c.Misses name ∧ ∃ ran, c.Prepares (some source) name ran) ∧
      (Runs (·.rebuild name) c ↔ ∃ ran, c.Prepares none name ran) := by
  refine ⟨?_, outcome_compileStored confined free, runs_build_iff, runs_compileStored_iff⟩
  by_cases misses : c.Misses name
  · rw [build_of_misses misses]
    exact (outcome_compileStored confined free).congr fun compiler =>
      build_of_misses (c := { c with compiler }) misses
  · rw [build_of_not_misses misses]
    refine .cached (fun runs => misses (runs_build_iff.mp runs).1) (fun definition => ?_) rfl
    exact misses (Or.inl definition)

end

/-- A compiler that writes a part of the unit and fails. -/
def halting : Compiler := fun files _ artifact =>
  (.error (.toolchain (some 1) "no space left"), (files.write artifact "half".toUTF8).toOption.getD files)

theorem confined_halting : Compiler.Confined halting := by
  intro files source artifact
  unfold halting
  cases written : files.write artifact "half".toUTF8 with
  | error e => exact Or.inl rfl
  | ok after =>
      obtain ⟨place, hplace, rfl⟩ := exists_of_write written
      exact Or.inr ⟨place, _, hplace, rfl⟩

def writing : Compiler := fun files _ artifact =>
  match files.write artifact "unit".toUTF8 with
  | .error e => (.error (.file artifact e), files)
  | .ok files => (.ok (), files)

theorem confined_writing : Compiler.Confined writing := by
  intro files source artifact
  unfold writing
  cases written : files.write artifact "unit".toUTF8 with
  | error e => exact Or.inl rfl
  | ok after =>
      obtain ⟨place, hplace, rfl⟩ := exists_of_write written
      exact Or.inr ⟨place, _, hplace, rfl⟩

/-- A compiler that stops half-way publishes nothing, and one that writes a unit publishes it. -/
theorem build_publishes_complete_halting :
    let c : BuildCache := ⟨.default, halting, furnished, 0⟩
    let c' : BuildCache := ⟨.default, writing, furnished, 0⟩
    Outcome (·.build "unit query" "q") c "q" (some "unit query") (c.build "unit query" "q") ∧
      Outcome (·.rebuild "q") c "q" none (c.rebuild "q") ∧
      (c.build "unit query" "q").1 = .error (.toolchain (some 1) "no space left") ∧
      (c'.build "unit query" "q").1 = .ok .compiled ∧
      ∃ ran made bytes, Publication c' "q" (some "unit query") ran made
        (c'.build "unit query" "q").2.files bytes := by
  intro c c'
  have free : (furnished.pave Configuration.default.workDir).2.look
      (Configuration.default.artifactPath "q") ≠ some .directory := by
    rw [pave_of_leads leads_furnished]
    intro directory
    obtain ⟨place, hplace, hnode⟩ := look_eq_some_iff.mp directory
    have named : IsFileName ("q" ++ ".unit") :=
      isFileName_append (by decide) (by decide) (by decide)
    obtain ⟨-, -, w, leads, rfl⟩ := (place_join_eq_ok_iff named).mp hplace
    rw [leads.unique leads_furnished, node?_furnished] at hnode
    cases hnode
  obtain ⟨built, rebuilt, -⟩ := build_publishes_complete (c := c) "unit query" confined_halting free
  have published := (build_publishes_complete (c := c') "unit query" confined_writing free).1
  have halted : (c.build "unit query" "q").1 = .error (.toolchain (some 1) "no space left") := by
    decide +kernel
  have compiled : (c'.build "unit query" "q").1 = .ok .compiled := by decide +kernel
  refine ⟨built, rebuilt, halted, compiled, ?_⟩
  rw [← Prod.eta (c'.build "unit query" "q"), compiled] at published
  exact published.publication

end BuildCache

end TemporalDB
