import TemporalDB.Proofs.Pipeline.Attendance
import TemporalDB.Proofs.Pipeline.Definition
import TemporalDB.Proofs.Pipeline.Transparency

/-!
# Open units are those in their files

In the course of a run, whatever the compiler does and whatever comes of each step, a unit that is
kept open is the one in its file. There is one exception: when a build of the definition fails, its
file is removed, but its path is not forgotten.
-/

namespace TemporalDB.Pipeline

open FileTree

variable {config : Configuration} {compiler : Compiler} {failed failed' : Prop} {text listing : String}
  {before : FileTree} {p : Pipeline} {steps : List Step} {q : QueryArtifact} {d : Definition}
  {l : Loader} {name : String} {source : Option String}

/-- A pipeline with a compiler that writes nothing but its unit, whose open units are attended. -/
structure Watched (config : Configuration) (compiler : Compiler) (failed : Prop) (p : Pipeline) :
    Prop where
  configured : p.config = config
  compiler : p.cache.compiler = compiler
  attended : Attended config failed p.files p.loader

theorem Watched.mono (watched : Watched config compiler failed p) (h : failed → failed') :
    Watched config compiler failed' p :=
  ⟨watched.configured, watched.compiler, watched.attended.mono h⟩

theorem Watched.withLoader (watched : Watched config compiler failed p)
    (attended : Attended config failed p.files l) :
    Watched config compiler failed { p with loader := l } :=
  ⟨watched.configured, watched.compiler, attended⟩

theorem Watched.consult (watched : Watched config compiler failed p) (issued : d.IsIssued config)
    (symbols : List String) : Watched config compiler failed (p.consult d.artifact symbols) := by
  have loaded := watched.attended.load (Or.inl rfl) symbols
  rw [← issued] at loaded
  cases done : p.loader.load p.files d.artifact symbols with
  | mk result l =>
      rw [done] at loaded
      cases result with
      | error e =>
          rw [consult_of_error done]
          exact watched.withLoader loaded
      | ok u =>
          rw [consult_of_ok done]
          exact watched.withLoader (loaded.of_kept fun _ _ => id)

section

variable [Tags]

namespace Watched

/-- What a build leaves is watched if its open units are attended. -/
theorem of_build (watched : Watched config compiler failed p)
    {result : Except BuildError BuildStatus} {cache : BuildCache}
    (done : p.cache.compileStored source name = (result, cache))
    (attended : Attended config failed' cache.files l) :
    Watched config compiler failed' ⟨cache, l⟩ := by
  obtain ⟨hconfig, hcompiler⟩ := p.cache.compileStored_config source name
  rw [done] at hconfig hcompiler
  exact ⟨hconfig.trans watched.configured, hcompiler.trans watched.compiler, attended⟩

/-! ## Steps -/

/-- The definition is open without its file only after a failed build of it, and no more when it has
been built. -/
theorem compileSchema (watched : Watched config compiler failed p) (unaliased : config.Unaliased)
    (confined : compiler.Confined)
    (still : failed → (∀ d, (p.compileSchema text).1 ≠ .ok d) → failed')
    (fails : (∃ e, (p.compileSchema text).1 = .error (.compile e)) → failed') :
    Watched config compiler failed' (p.compileSchema text).2 := by
  obtain ⟨rfl, rfl, attended⟩ := id watched
  cases parsed : Sql.parseSchema text with
  | error e =>
      unfold Pipeline.compileSchema at still ⊢
      rw [parsed] at still ⊢
      exact watched.mono fun hfailed => still hfailed (by simp)
  | ok schema =>
      rw [compileSchema_of_parsed parsed] at still fails ⊢
      cases done : p.cache.compileStored (some (Listing.ofSchema schema).text)
          p.config.definitionName with
      | mk result cache =>
          rw [done] at still fails
          cases result with
          | error e =>
              refine watched.of_build done (attended.build_error unaliased confined
                rfl (Or.inl rfl) done (fun hfailed => still hfailed (by simp)) ?_)
              exact fun _ _ _ => Or.inr ⟨fails ⟨e, rfl⟩, rfl⟩
          | ok status =>
              refine watched.of_build done ((attended.build_ok unaliased confined rfl
                (Or.inl rfl) done).of_forgotten ?_)
              exact OrderedMap.find?_erase_self

theorem compileQuery (watched : Watched config compiler failed p) (unaliased : config.Unaliased)
    (confined : compiler.Confined) :
    Watched config compiler failed (p.compileQuery text d).2 := by
  obtain ⟨rfl, rfl, attended⟩ := id watched
  cases found : p.cache.lookup (Fingerprint.of text).artifactName with
  | some artifact =>
      rw [compileQuery_of_lookup found]
      exact watched
  | none =>
      cases hplanned : planned text d.schema with
      | error e =>
          rw [compileQuery_of_error found hplanned]
          exact watched
      | ok listing =>
          rw [compileQuery_of_ok found hplanned]
          cases done : p.cache.compileStored (some listing) (Fingerprint.of text).artifactName with
          | mk result cache =>
              cases result with
              | error e =>
                  refine watched.of_build done (attended.build_error unaliased confined
                    rfl (Or.inr ⟨text, rfl⟩) done id ?_)
                  -- the look-up found nothing, so the unit that is kept open has no file
                  intro legal o held
                  obtain ⟨parts, other, -, path⟩ := attended.built _ o held
                  rw [path] at parts ⊢
                  exact Or.inl (read_ne_of_lookup rfl found parts legal)
              | ok status =>
                  cases BuildCache.eq_compiled_of_compileStored done
                  exact watched.of_build done (attended.build_ok unaliased confined
                    rfl (Or.inr ⟨text, rfl⟩) done)

/-- A unit of a query that cannot be loaded is forgotten before it is removed and built again. -/
theorem recover (watched : Watched config compiler failed p) (unaliased : config.Unaliased)
    (confined : compiler.Confined) (issued : q.IsIssued config) :
    Watched config compiler failed (p.recover q).2 := by
  obtain ⟨rfl, rfl, attended⟩ := id watched
  obtain ⟨text, hname, hartifact⟩ := issued
  have built : IsBuilt p.config q.name := Or.inr ⟨text, hname⟩
  have evicted : Watched p.config p.cache.compiler failed
      ⟨(p.cache.evict q.name).2, p.loader.invalidate q.artifact⟩ := by
    rw [BuildCache.evict_eq, hartifact]
    exact ⟨rfl, rfl, attended.discard unaliased built⟩
  have forgotten : ∀ o, (p.loader.invalidate q.artifact).kept.find?
      (p.config.artifactPath q.name).parts ≠ some o := by
    rw [← hartifact]
    intro o held
    exact absurd rfl (Loader.find?_invalidate held).1
  have confined' : (p.cache.evict q.name).2.compiler.Confined := by
    rw [show (p.cache.evict q.name).2.compiler = p.cache.compiler from evicted.compiler]
    exact confined
  obtain ⟨hconfig, -, attended'⟩ := id evicted
  rcases p.recover_outcomes q with ⟨e, cache, gone, stuck⟩ |
    ⟨cache, e, after, gone, done, gaveUp⟩ | ⟨cache, status, after, gone, done, recovered⟩
  · rw [gone] at evicted
    rw [stuck]
    exact evicted
  · rw [gone] at evicted hconfig confined' attended'
    rw [gaveUp]
    exact evicted.of_build done (attended'.build_error unaliased confined'
      hconfig built done id fun _ o held => absurd held (forgotten o))
  · rw [gone] at evicted hconfig confined' attended'
    have rebuilt := attended'.build_ok unaliased confined' hconfig built done
    have same : (p.loader.invalidate q.artifact).invalidate
        (p.config.artifactPath q.name) = p.loader.invalidate q.artifact := by
      unfold Loader.invalidate
      rw [hartifact]
      dsimp only
      rw [OrderedMap.erase_of_find?_eq_none OrderedMap.find?_erase_self]
    rw [same] at rebuilt
    have loaded := rebuilt.load built [EntryPoint.query]
    rw [← hartifact] at loaded
    rw [recovered]
    exact evicted.of_build done loaded

theorem runQuery (watched : Watched config compiler failed p) (unaliased : config.Unaliased)
    (confined : compiler.Confined) (issued : q.IsIssued config) (db : Database)
    (params : List String) (explain : Bool) (now : Instant) :
    Watched config compiler failed (p.runQuery q db params explain now).2.2 := by
  have after : Watched config compiler failed (p.loadQuery q).2 := by
    rcases p.loadQuery_cases q with ⟨o, loads, loaded⟩ | ⟨e, -, gaveUp | recovered⟩
    · obtain ⟨text, hname, hartifact⟩ := issued
      have kept := watched.attended.load (Or.inr ⟨text, hname⟩) [EntryPoint.query]
      rw [← hartifact, Loader.load_eq_ok loads] at kept
      rw [loaded]
      exact watched.withLoader kept
    · rw [gaveUp]
      exact watched
    · rw [recovered]
      exact watched.recover unaliased confined issued
  cases done : p.loadQuery q with
  | mk result p' =>
      rw [done] at after
      cases result with
      | error e =>
          rw [runQuery_of_error done]
          exact after
      | ok u =>
          rw [runQuery_of_ok done]
          exact after.withLoader (after.attended.of_kept fun _ _ => id)

/-- **Every step leaves the open units attended.** -/
theorem step (watched : Watched config compiler failed p) (unaliased : config.Unaliased)
    (confined : compiler.Confined) {s : Step} (issued : s.IsIssued config)
    (still : failed → (∀ text d, s = .compileSchema text → (p.compileSchema text).1 ≠ .ok d) →
      failed')
    (fails : ∀ text e, s = .compileSchema text → (p.compileSchema text).1 = .error (.compile e) →
      failed') : Watched config compiler failed' (p.step s) := by
  cases s with
  | compileSchema text =>
      refine watched.compileSchema unaliased confined (fun hfailed unbuilt => still hfailed ?_)
        fun ⟨e, failure⟩ => fails text e rfl failure
      rintro _ d ⟨⟩
      exact unbuilt d
  | openDatabase d now =>
      rw [step_openDatabase, openDatabase_snd]
      exact (watched.consult issued _).mono (still · nofun)
  | getSize d db table =>
      rw [step_getSize, getSize_snd]
      exact (watched.consult issued _).mono (still · nofun)
  | compileQuery text d => exact (watched.compileQuery unaliased confined).mono (still · nofun)
  | runQuery q db params explain now =>
      exact (watched.runQuery unaliased confined issued db params explain now).mono (still · nofun)
  | shutdown =>
      refine (watched.withLoader (Attended.of_nothing ?_)).mono (still · nofun)
      split <;> rfl
  | restart =>
      exact ⟨watched.configured, watched.compiler, Attended.of_nothing rfl⟩

end Watched

/-- In the course of a run a build of the definition failed, and none succeeded since. -/
def DefinitionFailed (start : Pipeline) (steps : List Step) : Prop :=
  ∃ earlier text later e, steps = earlier ++ .compileSchema text :: later ∧
    ((start.run earlier).compileSchema text).1 = .error (.compile e) ∧
    ∀ between text' rest d, later = between ++ .compileSchema text' :: rest →
      ((start.run (earlier ++ .compileSchema text :: between)).compileSchema text').1 ≠ .ok d

theorem DefinitionFailed.snoc {start : Pipeline} {s : Step} (h : DefinitionFailed start steps)
    (unbuilt : ∀ text d, s = .compileSchema text →
      ((start.run steps).compileSchema text).1 ≠ .ok d) : DefinitionFailed start (steps ++ [s]) := by
  obtain ⟨earlier, text, later, e, rfl, failure, since⟩ := h
  refine ⟨earlier, text, later ++ [s], e, by simp, failure, ?_⟩
  intro between text' rest d split
  rcases snoc_split split with ⟨rfl, rfl⟩ | ⟨rest, split⟩
  · exact unbuilt text' d rfl
  · exact since between text' rest d split

theorem watched_run (unaliased : config.Unaliased) (confined : compiler.Confined)
    (issued : ∀ s ∈ steps, s.IsIssued config) :
    Watched config compiler (DefinitionFailed (new config compiler before) steps)
      ((new config compiler before).run steps) := by
  induction steps using List.reverseRecOn with
  | nil => exact ⟨rfl, rfl, Attended.of_nothing rfl⟩
  | append_singleton steps s ih =>
      rw [List.forall_mem_append, List.forall_mem_singleton] at issued
      rw [run_snoc]
      refine (ih issued.1).step unaliased confined issued.2 (fun h => h.snoc) ?_
      rintro text e rfl failure
      exact ⟨steps, text, [], e, rfl, failure, by simp⟩

/-- **Units that are kept open are those in their files**, after every step of a run, whatever the
compiler does and whatever comes of the steps. But if a build of the definition failed and none
succeeded since, then the definition may be open although its file is gone. -/
theorem open_units_current (unaliased : config.Unaliased) (confined : compiler.Confined)
    (issued : ∀ s ∈ steps, s.IsIssued config) :
    let p := (new config compiler before).run steps
    ∀ parts o, p.loader.kept.find? parts = some o → o.path.parts = parts ∧
      (Loader.readUnit p.files o.path = .ok o.unit ∨
        DefinitionFailed (new config compiler before) steps ∧
          parts = (config.artifactPath config.definitionName).parts ∧
          ∀ bytes, p.files.read o.path ≠ .ok bytes) := by
  intro p parts o held
  obtain ⟨-, -, attended⟩ := watched_run unaliased confined issued
  obtain ⟨hparts, -⟩ := attended.built parts o held
  refine ⟨hparts, (attended.current parts o held).imp_right ?_⟩
  rintro ⟨hfailed, definition, gone, -⟩
  exact ⟨hfailed, hparts.symm.trans definition, gone⟩

/-! ## Builds of the definition -/

/-- A compiler that does with a listing of the definition as the assembler does builds it. -/
theorem compileStored_definition (compiler : Compiler) (builds : Nat) {u : CompiledUnit}
    {files : FileTree} {w : List String} (sound : config.Sound) (holds : Holds config (fun _ _ => True) w files)
    (placeable : Placeable config files config.definitionName)
    (assembled : Assembly.assemble listing = .ok u)
    (wanted : ∀ files source artifact, FileTree.readText files source = .ok listing →
      compiler files source artifact = Compiler.inProcess files source artifact) : ∃ after,
    BuildCache.compileStored ⟨config, compiler, files, builds⟩ (some listing)
        config.definitionName = (.ok .compiled, ⟨config, compiler, after, builds + 1⟩) ∧
      Holds config (fun _ _ => True) w after ∧ files.SameOutside after w ∧
      Placeable config after config.definitionName ∧
      after.read (config.artifactPath config.definitionName) = .ok u.artifact.toUTF8 := by
  have storable : Storable (fun _ _ => True) ⟨config, .inProcess, files, builds⟩
      config.definitionName (some listing) := fun _ _ query same => absurd same (sound.apart query)
  obtain ⟨after, done, holds', -, -, outside, placeable'⟩ :=
    Holds.compileStored_builds (c := ⟨config, .inProcess, files, builds⟩) sound (Or.inl rfl)
      rfl rfl holds storable assembled placeable
  have same := BuildCache.compileStored_congr (c := ⟨config, .inProcess, files, builds⟩)
    compiler (some listing) config.definitionName fun ran prepares => by
      obtain ⟨-, -, -, stored⟩ := prepares.agrees
      exact wanted _ _ _ (readText_eq_ok_iff_read.mpr (stored _ rfl))
  have stored := BuildCache.read_of_compileStored rfl done assembled
  rw [done] at same
  exact ⟨after, same, holds', outside, placeable' _ placeable, stored⟩

/-- After a compiler refused a listing of the definition, there is no definition. -/
theorem compileStored_refused (compiler : Compiler) (builds : Nat) {u : CompiledUnit}
    {files : FileTree} {w : List String} {e : BuildError} (sound : config.Sound)
    (holds : Holds config (fun _ _ => True) w files)
    (placeable : Placeable config files config.definitionName)
    (assembled : Assembly.assemble listing = .ok u)
    (refused : ∀ files source artifact, FileTree.readText files source = .ok listing →
      compiler files source artifact = (.error e, files)) : ∃ after,
    BuildCache.compileStored ⟨config, compiler, files, builds⟩ (some listing)
        config.definitionName = (.error e, ⟨config, compiler, after, builds + 1⟩) ∧
      ∀ bytes, after.read (config.artifactPath config.definitionName) ≠ .ok bytes := by
  -- The assembler would build it, so it can be stored.
  obtain ⟨built, done, -⟩ := compileStored_definition .inProcess builds
    sound holds placeable assembled fun _ _ _ _ => rfl
  have prepares : ∃ ran, BuildCache.Prepares ⟨config, compiler, files, builds⟩ (some listing)
      config.definitionName ran := by
    rcases BuildCache.compileStored_cases (c := ⟨config, compiler, files, builds⟩)
      (some listing) config.definitionName with ⟨ran, prepares, -⟩ | ⟨-, e', after, -, failed⟩
    · exact ⟨ran, prepares⟩
    · cases (failed .inProcess).symm.trans done
  obtain ⟨ran, prepares⟩ := prepares
  obtain ⟨ran, prepares, failed⟩ := BuildCache.compileStored_eq_error prepares
    fun ran prepares => by
      obtain ⟨-, -, -, stored⟩ := prepares.agrees
      exact refused _ _ _ (readText_eq_ok_iff_read.mpr (stored _ rfl))
  refine ⟨_, failed, ?_⟩
  intro bytes hread
  have named : IsFileName (config.definitionName ++ ".unit") :=
    isFileName_append sound.plain (by decide) (by decide)
  exact absurd hread (read_discard named)

end

/-! ## A definition that stays open without its file -/

def keeping : Configuration := { Configuration.default with keepUnitsOpen := true }

/-- The assembler, but it refuses one listing. -/
def refusing (unwanted : String) : Compiler := fun files source artifact =>
  match files.readText source with
  | .error e => (.error (.file source e), files)
  | .ok listing =>
    if listing = unwanted then (.error (.toolchain (some 1) "refused"), files)
    else Compiler.inProcess files source artifact

theorem confined_refusing (unwanted : String) : (refusing unwanted).Confined := by
  intro files source artifact
  unfold refusing
  split
  · exact Or.inl rfl
  · split
    · exact Or.inl rfl
    · exact Compiler.confined_inProcess files source artifact

def unwantedListing : String := (Listing.ofSchema (declared "b")).text

/-- A schema is built and opened, and then another one is to be built. -/
def redefining : List Step :=
  [.compileSchema (declaring "a"), .openDatabase (defined "a") .first, .compileSchema (declaring "b")]

theorem open_units_current_redefining :
    let start := new keeping (refusing unwantedListing) furnished
    ∀ parts o, (start.run redefining).loader.kept.find? parts = some o → o.path.parts = parts ∧
      (Loader.readUnit (start.run redefining).files o.path = .ok o.unit ∨
        DefinitionFailed start redefining ∧
          parts = (keeping.artifactPath keeping.definitionName).parts ∧
          ∀ bytes, (start.run redefining).files.read o.path ≠ .ok bytes) :=
  open_units_current (Configuration.unaliased_of_plain (by decide)) (confined_refusing _)
    (by simp [redefining, Step.IsIssued, Definition.IsIssued, defined]; rfl)

theorem refusing_wanted {files : FileTree} {source artifact : Path}
    (stored : files.readText source = .ok (Listing.ofSchema (declared "a")).text) :
    refusing unwantedListing files source artifact = Compiler.inProcess files source artifact := by
  have different : (Listing.ofSchema (declared "a")).text ≠ unwantedListing := by
    intro same
    have assembled := assemble_of_parseSchema (parseSchema_declaring (Or.inr rfl))
    rw [show (Listing.ofSchema (declared "b")).text = _ from same.symm,
      assemble_of_parseSchema (parseSchema_declaring (Or.inl rfl))] at assembled
    exact absurd (Except.ok.inj assembled) (by decide)
  unfold refusing
  rw [stored]
  exact if_neg different

theorem refusing_unwanted {files : FileTree} {source artifact : Path}
    (stored : files.readText source = .ok unwantedListing) :
    refusing unwantedListing files source artifact =
      (.error (.toolchain (some 1) "refused"), files) := by
  unfold refusing
  rw [stored]
  exact if_pos rfl

theorem vacant_keeping : Vacant keeping furnished :=
  ⟨vacant_furnished.listing, vacant_furnished.unit, vacant_furnished.definition⟩

theorem sound_keeping : keeping.Sound :=
  ⟨sound_default.plain, sound_default.apart, sound_default.legal⟩

theorem placeable_keeping : Placeable keeping furnished keeping.definitionName :=
  have placeable : Placeable .default furnished "db" := placeable_furnished (by decide) (by decide)
  ⟨placeable.listing, placeable.unit⟩

theorem holds_keeping : Holds keeping (fun _ _ => True) ["tmp"] furnished :=
  vacant_keeping.holds hasRoom_default (createDirectories_of_hasRoom hasRoom_default leads_furnished)
    leads_furnished

theorem exists_opened (compiler : Compiler) {column : String} (h : column = "a" ∨ column = "b")
    (wanted : ∀ files source artifact,
      FileTree.readText files source = .ok (Listing.ofSchema (declared column)).text →
      compiler files source artifact = Compiler.inProcess files source artifact) :
    let start := new keeping compiler furnished
    let path := keeping.artifactPath keeping.definitionName
    (start.compileSchema (declaring column)).1 = .ok (defined column) ∧ ∃ files l,
      start.run [.compileSchema (declaring column), .openDatabase (defined column) .first] =
        ⟨⟨keeping, compiler, files, 1⟩, l⟩ ∧
      Holds keeping (fun _ _ => True) ["tmp"] files ∧ furnished.SameOutside files ["tmp"] ∧
      Placeable keeping files keeping.definitionName ∧
      l.kept.find? path.parts = some ⟨path, 0, Assembly.definitionUnit (declared column)⟩ := by
  intro start path
  obtain ⟨files, built, holds, outside, placeable, stored⟩ :=
    compileStored_definition compiler 0 sound_keeping holds_keeping
      placeable_keeping (assemble_of_parseSchema (parseSchema_declaring h)) wanted
  let l : Loader := (Loader.new true).invalidate path
  have compiled : start.compileSchema (declaring column) =
      (.ok (defined column), ⟨⟨keeping, compiler, files, 1⟩, l⟩) :=
    compileSchema_of_built (parseSchema_declaring h) built
  have nothing : l.kept.find? path.parts = none := OrderedMap.find?_erase_self
  have fits : (Assembly.definitionUnit (declared column)).program.Fits := by
    simp [Assembly.definitionUnit, Program.Fits, Schema.Fits, Relation.Fits, declared, Text.bound64]
  have loads := Loader.loads_artifact fits rfl provides_definitionUnit nothing stored
  let o : OpenUnit := ⟨path, 0, Assembly.definitionUnit (declared column)⟩
  refine ⟨congrArg Prod.fst compiled, files, (l.keep path o).release
    ⟨path, 0, o.unit, [EntryPoint.makeDatabase, EntryPoint.getSize]⟩, ?_, holds, outside, placeable,
    Loader.find?_keep_self (o := o) rfl nothing⟩
  rw [run_cons, step_compileSchema, compiled, run_cons, step_openDatabase, run_nil]
  exact congrArg Prod.snd (openDatabase_of_loads (d := defined column)
    (p := ⟨⟨keeping, compiler, files, 1⟩, l⟩) loads)

/-- **A definition stays open when a build of it has failed**, although its file is gone. -/
theorem open_definition_outdated :
    let start := new keeping (refusing unwantedListing) furnished
    let opened := start.run [.compileSchema (declaring "a"), .openDatabase (defined "a") .first]
    let p := start.run redefining
    (start.compileSchema (declaring "a")).1 = .ok (defined "a") ∧
      (opened.compileSchema (declaring "b")).1 =
        .error (.compile (.toolchain (some 1) "refused")) ∧
      ∃ parts o, p.loader.kept.find? parts = some o ∧
        ∀ bytes, p.files.read o.path ≠ .ok bytes := by
  intro start opened p
  obtain ⟨compiled, files, l, done, holds, -, placeable, kept⟩ :=
    exists_opened (refusing unwantedListing) (Or.inl rfl) fun _ _ _ => refusing_wanted
  have opened_eq : opened = ⟨⟨keeping, refusing unwantedListing, files, 1⟩, l⟩ := done
  obtain ⟨after, refused, gone⟩ :=
    compileStored_refused (refusing unwantedListing) 1 sound_keeping holds
      placeable (assemble_of_parseSchema (parseSchema_declaring (Or.inr rfl)))
      fun _ _ _ => refusing_unwanted
  have failed : opened.compileSchema (declaring "b") =
      (.error (.compile (.toolchain (some 1) "refused")),
        ⟨⟨keeping, refusing unwantedListing, after, 2⟩, l⟩) := by
    rw [opened_eq]
    exact compileSchema_of_failed (parseSchema_declaring (Or.inr rfl)) refused
  have last : p = ⟨⟨keeping, refusing unwantedListing, after, 2⟩, l⟩ := by
    have steps : redefining = [.compileSchema (declaring "a"), .openDatabase (defined "a") .first] ++
        [.compileSchema (declaring "b")] := rfl
    unfold p
    rw [steps, run_snoc, step_compileSchema, done, ← opened_eq, failed]
  rw [last]
  exact ⟨compiled, congrArg Prod.fst failed, _, _, kept, gone⟩

end TemporalDB.Pipeline
