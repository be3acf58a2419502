import TemporalDB.Proofs.Pipeline.Coherence

/-!
# Runs of pipelines

A pipeline is asked to do one thing after another, and may begin anew in between. Whatever comes of
each, the work directory stays as pipelines leave it, and the units that are kept open are those in
their files.
-/

namespace TemporalDB

open FileTree

/-- A definition as a pipeline hands it out. -/
def Definition.IsIssued (config : Configuration) (d : Definition) : Prop :=
  d.artifact = config.artifactPath config.definitionName

def QueryArtifact.IsIssued (config : Configuration) (q : QueryArtifact) : Prop :=
  ∃ text, q.name = (Fingerprint.of text).artifactName ∧ q.artifact = config.artifactPath q.name

namespace Pipeline

inductive Step where
  | compileSchema (text : String)
  | openDatabase (d : Definition) (now : Instant)
  | getSize (d : Definition) (db : Database) (table : String)
  | compileQuery (text : String) (d : Definition)
  | runQuery (q : QueryArtifact) (db : Database) (params : List String) (explain : Bool)
      (now : Instant)
  | shutdown
  | restart

/-- A step is given only what a pipeline has handed out. -/
def Step.IsIssued (config : Configuration) : Step → Prop
  | .openDatabase d _ => d.IsIssued config
  | .getSize d _ _ => d.IsIssued config
  | .runQuery q _ _ _ _ => q.IsIssued config
  | _ => True

variable {config : Configuration} {compiled compiled' : String → Schema → Prop}
  {text name listing : String} {before : FileTree} {p p' : Pipeline} {steps : List Step}
  {q : QueryArtifact} {d : Definition} {l : Loader}

/-- A step of a longer run is the last one, or one of the run before that. -/
theorem snoc_split {s s' : Step} {earlier later : List Step}
    (h : steps ++ [s] = earlier ++ s' :: later) :
    earlier = steps ∧ s' = s ∨ ∃ later', steps = earlier ++ s' :: later' := by
  rcases List.eq_nil_or_concat later with rfl | ⟨later, last, rfl⟩
  · obtain ⟨rfl, rfl⟩ := List.append_singleton_inj.mp h
    exact Or.inl ⟨rfl, rfl⟩
  · rw [List.concat_eq_append, ← List.cons_append, ← List.append_assoc] at h
    exact Or.inr ⟨later, (List.append_singleton_inj.mp h).1⟩

/-! ## Consulting the definition -/

/-- The pipeline after a unit was loaded and taken back. -/
def consult (p : Pipeline) (path : Path) (symbols : List String) : Pipeline :=
  match p.loader.load p.files path symbols with
  | (.error _, loader) => { p with loader }
  | (.ok u, loader) => { p with loader := loader.release u }

theorem consult_of_error {path : Path} {symbols : List String} {e : LoadError}
    (h : p.loader.load p.files path symbols = (.error e, l)) :
    p.consult path symbols = { p with loader := l } := by
  unfold consult
  rw [h]

theorem consult_of_ok {path : Path} {symbols : List String} {u : ExecutionUnit}
    (h : p.loader.load p.files path symbols = (.ok u, l)) :
    p.consult path symbols = { p with loader := l.release u } := by
  unfold consult
  rw [h]

/-- Opening a database only consults the definition, whatever the table files hold. -/
theorem openDatabase_snd (p : Pipeline) (d : Definition) (now : Instant) :
    (p.openDatabase d now).2 =
      p.consult d.artifact [EntryPoint.makeDatabase, EntryPoint.getSize] := by
  unfold openDatabase
  cases done : p.loader.load p.files d.artifact [EntryPoint.makeDatabase, EntryPoint.getSize] with
  | mk result l =>
      cases result with
      | error e => rw [consult_of_error done]
      | ok u => rw [consult_of_ok done]

theorem getSize_snd (p : Pipeline) (d : Definition) (db : Database) (table : String) :
    (p.getSize d db table).2 = p.consult d.artifact [EntryPoint.getSize] := by
  unfold getSize
  cases done : p.loader.load p.files d.artifact [EntryPoint.getSize] with
  | mk result l =>
      cases result with
      | error e => rw [consult_of_error done]
      | ok u => rw [consult_of_ok done]

theorem cache_consult (path : Path) (symbols : List String) :
    (p.consult path symbols).cache = p.cache := by
  unfold consult
  split <;> rfl

/-! ## Steps and runs -/

variable [Tags]

/-- The pipeline after a step, whatever came of it. -/
def step (p : Pipeline) : Step → Pipeline
  | .compileSchema text => (p.compileSchema text).2
  | .openDatabase d now => (p.openDatabase d now).2
  | .getSize d db table => (p.getSize d db table).2
  | .compileQuery text d => (p.compileQuery text d).2
  | .runQuery q db params explain now => (p.runQuery q db params explain now).2.2
  | .shutdown => p.shutdown.2
  | .restart => p.restart

def run (p : Pipeline) (steps : List Step) : Pipeline := steps.foldl step p

theorem run_nil : p.run [] = p := rfl

theorem run_cons (s : Step) : p.run (s :: steps) = (p.step s).run steps := rfl

theorem step_compileSchema : p.step (.compileSchema text) = (p.compileSchema text).2 := rfl

theorem step_compileQuery : p.step (.compileQuery text d) = (p.compileQuery text d).2 := rfl

theorem step_openDatabase {now : Instant} :
    p.step (.openDatabase d now) = (p.openDatabase d now).2 := rfl

theorem step_getSize {db : Database} {table : String} :
    p.step (.getSize d db table) = (p.getSize d db table).2 := rfl

theorem step_runQuery {db : Database} {params : List String} {explain : Bool} {now : Instant} :
    p.step (.runQuery q db params explain now) = (p.runQuery q db params explain now).2.2 := rfl

theorem run_snoc (s : Step) : p.run (steps ++ [s]) = (p.run steps).step s :=
  List.foldl_append

/-! ## What is handed out -/

/-- A schema is built, whether its definition is there or not. -/
theorem compileSchema_of_parsed {schema : Schema} (parsed : Sql.parseSchema text = .ok schema) :
    p.compileSchema text =
    match p.cache.compileStored (some (Listing.ofSchema schema).text) p.config.definitionName with
    | (.error e, cache) => (.error (.compile e), { p with cache })
    | (.ok status, cache) =>
      (.ok ⟨p.config.artifactPath p.config.definitionName, schema, status⟩,
        ⟨cache, p.loader.invalidate (p.config.artifactPath p.config.definitionName)⟩) := by
  unfold compileSchema
  rw [parsed]
  dsimp only
  cases done : p.cache.compileStored (some (Listing.ofSchema schema).text)
      p.config.definitionName with
  | mk result cache =>
      have built : p.cache.build (Listing.ofSchema schema).text p.config.definitionName =
          (result, cache) := BuildCache.build_definition.trans done
      cases result with
      | error e => rw [built]
      | ok status => rw [built]

theorem compileSchema_of_built {schema : Schema} {status : BuildStatus} {cache : BuildCache}
    (parsed : Sql.parseSchema text = .ok schema)
    (built : p.cache.compileStored (some (Listing.ofSchema schema).text) p.config.definitionName =
      (.ok status, cache)) :
    p.compileSchema text = (.ok ⟨p.config.artifactPath p.config.definitionName, schema, status⟩,
      ⟨cache, p.loader.invalidate (p.config.artifactPath p.config.definitionName)⟩) := by
  rw [compileSchema_of_parsed parsed, built]

theorem compileSchema_of_failed {schema : Schema} {e : BuildError} {cache : BuildCache}
    (parsed : Sql.parseSchema text = .ok schema)
    (failed : p.cache.compileStored (some (Listing.ofSchema schema).text) p.config.definitionName =
      (.error e, cache)) :
    p.compileSchema text = (.error (.compile e), { p with cache }) := by
  rw [compileSchema_of_parsed parsed, failed]

/-- A schema that was compiled was read and built, and its definition is forgotten by the loader. -/
theorem exists_of_compileSchema (done : p.compileSchema text = (.ok d, p')) :
    Sql.parseSchema text = .ok d.schema ∧
      d.artifact = p.config.artifactPath p.config.definitionName ∧
      p'.loader = p.loader.invalidate d.artifact ∧
      p.cache.compileStored (some (Listing.ofSchema d.schema).text) p.config.definitionName =
        (.ok d.status, p'.cache) := by
  cases parsed : Sql.parseSchema text with
  | error e =>
      unfold compileSchema at done
      rw [parsed] at done
      cases done
  | ok schema =>
      cases built : p.cache.compileStored (some (Listing.ofSchema schema).text)
          p.config.definitionName with
      | mk result cache =>
          cases result with
          | error e => cases (compileSchema_of_failed parsed built).symm.trans done
          | ok status =>
              cases (compileSchema_of_built parsed built).symm.trans done
              exact ⟨rfl, rfl, rfl, built⟩

theorem compileQuery_of_lookup {artifact : Path}
    (h : p.cache.lookup (Fingerprint.of text).artifactName = some artifact) :
    p.compileQuery text d = (.ok ⟨.of text, (Fingerprint.of text).artifactName, artifact, .cached⟩,
      p) := by
  unfold compileQuery
  dsimp only
  rw [h]

theorem compileQuery_of_error {e : QueryError}
    (h : p.cache.lookup (Fingerprint.of text).artifactName = none)
    (hplanned : planned text d.schema = .error e) : p.compileQuery text d = (.error e, p) := by
  unfold compileQuery
  dsimp only
  rw [h]
  dsimp only
  cases parsed : Sql.parseQuery text with
  | error e' =>
      cases (planned_of_parse_error parsed).symm.trans hplanned
      rfl
  | ok query =>
      dsimp only
      cases hplan : Listing.ofQuery query d.schema with
      | error e' =>
          cases (planned_of_plan_error parsed hplan).symm.trans hplanned
          rfl
      | ok source => cases (planned_of_plan parsed hplan).symm.trans hplanned

/-- A text without a unit is compiled from the listing that it is planned to. -/
theorem compileQuery_of_ok (h : p.cache.lookup (Fingerprint.of text).artifactName = none)
    (hplanned : planned text d.schema = .ok listing) : p.compileQuery text d =
    match p.cache.compileStored (some listing) (Fingerprint.of text).artifactName with
    | (.error e, cache) => (.error (.compile e), { p with cache })
    | (.ok status, cache) =>
      (.ok ⟨.of text, (Fingerprint.of text).artifactName,
        p.config.artifactPath (Fingerprint.of text).artifactName, status⟩,
        ⟨cache, if status = .cached then p.loader else
          p.loader.invalidate (p.config.artifactPath (Fingerprint.of text).artifactName)⟩) := by
  cases parsed : Sql.parseQuery text with
  | error e => cases (planned_of_parse_error parsed).symm.trans hplanned
  | ok query =>
      cases hplan : Listing.ofQuery query d.schema with
      | error e => cases (planned_of_plan_error parsed hplan).symm.trans hplanned
      | ok source =>
          cases (planned_of_plan parsed hplan).symm.trans hplanned
          unfold compileQuery
          dsimp only
          rw [h, parsed]
          dsimp only
          rw [hplan]
          dsimp only
          cases done : p.cache.compileStored (some source.text)
              (Fingerprint.of text).artifactName with
          | mk result cache =>
              have built : p.cache.build source.text (Fingerprint.of text).artifactName =
                  (result, cache) := (BuildCache.build_of_lookup h).trans done
              cases result with
              | error e => rw [built]
              | ok status => rw [built]

/-- A text that was compiled is handed out under its own name. -/
theorem eq_of_compileQuery (h : (p.compileQuery text d).1 = .ok q) :
    q = ⟨.of text, (Fingerprint.of text).artifactName,
      p.config.artifactPath (Fingerprint.of text).artifactName, q.status⟩ := by
  cases found : p.cache.lookup (Fingerprint.of text).artifactName with
  | some artifact =>
      rw [compileQuery_of_lookup found] at h
      cases h
      rw [BuildCache.lookup_eq_some found]
      rfl
  | none =>
      cases hplanned : planned text d.schema with
      | error e =>
          rw [compileQuery_of_error found hplanned] at h
          cases h
      | ok listing =>
          rw [compileQuery_of_ok found hplanned] at h
          split at h
          · cases h
          · cases h
            rfl

theorem isIssued_of_compileQuery (h : (p.compileQuery text d).1 = .ok q) : q.IsIssued p.config := by
  rw [eq_of_compileQuery h]
  exact ⟨text, rfl, rfl⟩

/-! ## Loading the unit of a query -/

/-- What happens to a unit that cannot be loaded: it is removed, built again and loaded. -/
def recover (p : Pipeline) (q : QueryArtifact) : Except RunError ExecutionUnit × Pipeline :=
  let loader := p.loader.invalidate q.artifact
  match p.cache.evict q.name with
  | (.error e, cache) => (.error (.build e), ⟨cache, loader⟩)
  | (.ok (), cache) =>
    match cache.rebuild q.name with
    | (.error e, cache) => (.error (.build e), ⟨cache, loader⟩)
    | (.ok _, cache) =>
      let (u, loader) := loader.load cache.files q.artifact [EntryPoint.query]
      (u.mapError .load, ⟨cache, loader⟩)

theorem recover_of_evict_error {e : BuildError} {evicted : BuildCache}
    (stuck : p.cache.evict q.name = (.error e, evicted)) :
    p.recover q = (.error (.build e), ⟨evicted, p.loader.invalidate q.artifact⟩) := by
  unfold recover
  rw [stuck]

theorem recover_of_rebuild_error {evicted after : BuildCache} {e : BuildError}
    (gone : p.cache.evict q.name = (.ok (), evicted))
    (failed : evicted.rebuild q.name = (.error e, after)) :
    p.recover q = (.error (.build e), ⟨after, p.loader.invalidate q.artifact⟩) := by
  unfold recover
  rw [gone]
  dsimp only
  rw [failed]

theorem recover_of_rebuild {evicted after : BuildCache} {status : BuildStatus}
    (gone : p.cache.evict q.name = (.ok (), evicted))
    (done : evicted.rebuild q.name = (.ok status, after)) : p.recover q =
      (((p.loader.invalidate q.artifact).load after.files q.artifact
          [EntryPoint.query]).1.mapError .load,
        ⟨after, ((p.loader.invalidate q.artifact).load after.files q.artifact
          [EntryPoint.query]).2⟩) := by
  unfold recover
  rw [gone]
  dsimp only
  rw [done]

/-- **A unit cannot be removed, or cannot be built again, or it is loaded once more.** -/
theorem recover_outcomes (p : Pipeline) (q : QueryArtifact) :
    (∃ e evicted, p.cache.evict q.name = (.error e, evicted) ∧
      p.recover q = (.error (.build e), ⟨evicted, p.loader.invalidate q.artifact⟩)) ∨
    (∃ evicted e after, p.cache.evict q.name = (.ok (), evicted) ∧
      evicted.rebuild q.name = (.error e, after) ∧
      p.recover q = (.error (.build e), ⟨after, p.loader.invalidate q.artifact⟩)) ∨
    ∃ evicted status after, p.cache.evict q.name = (.ok (), evicted) ∧
      evicted.rebuild q.name = (.ok status, after) ∧ p.recover q =
        (((p.loader.invalidate q.artifact).load after.files q.artifact
            [EntryPoint.query]).1.mapError .load,
          ⟨after, ((p.loader.invalidate q.artifact).load after.files q.artifact
            [EntryPoint.query]).2⟩) := by
  cases gone : p.cache.evict q.name with
  | mk result evicted =>
      cases result with
      | error e => exact Or.inl ⟨e, evicted, rfl, recover_of_evict_error gone⟩
      | ok _ =>
          cases done : evicted.rebuild q.name with
          | mk result after =>
              cases result with
              | error e =>
                  exact Or.inr (Or.inl
                    ⟨evicted, e, after, rfl, done, recover_of_rebuild_error gone done⟩)
              | ok status =>
                  exact Or.inr (Or.inr
                    ⟨evicted, status, after, rfl, done, recover_of_rebuild gone done⟩)

theorem loadQuery_of_loads {o : OpenUnit}
    (h : p.loader.Loads p.files q.artifact [EntryPoint.query] o) :
    p.loadQuery q = (.ok ⟨q.artifact, o.serial, o.unit, [EntryPoint.query]⟩,
      { p with loader := p.loader.keep q.artifact o }) := by
  unfold loadQuery
  dsimp only
  rw [Loader.load_eq_ok h]

/-- The unit of a query is loaded, or it is given up, or it is built again. -/
theorem loadQuery_cases (p : Pipeline) (q : QueryArtifact) :
    (∃ o, p.loader.Loads p.files q.artifact [EntryPoint.query] o ∧
      p.loadQuery q = (.ok ⟨q.artifact, o.serial, o.unit, [EntryPoint.query]⟩,
        { p with loader := p.loader.keep q.artifact o })) ∨
    ∃ e, p.loader.load p.files q.artifact [EntryPoint.query] = (.error e, p.loader) ∧
      (p.loadQuery q = (.error (.load e), p) ∨ p.loadQuery q = p.recover q) := by
  rcases p.loader.load_cases p.files q.artifact [EntryPoint.query] with
    ⟨o, loads, -⟩ | ⟨e, failed⟩
  · exact Or.inl ⟨o, loads, loadQuery_of_loads loads⟩
  · refine Or.inr ⟨e, failed, ?_⟩
    unfold loadQuery
    dsimp only
    rw [failed]
    dsimp only
    cases e.isCorruption with
    | false => exact Or.inl rfl
    | true => exact Or.inr rfl

theorem runQuery_of_ok {u : ExecutionUnit} {db : Database} {params : List String} {explain : Bool}
    {now : Instant} (h : p.loadQuery q = (.ok u, p')) : p.runQuery q db params explain now =
      ((u.runQuery db params explain now).1, (u.runQuery db params explain now).2,
        { p' with loader := p'.loader.release u }) := by
  unfold runQuery
  rw [h]

theorem runQuery_of_error {e : RunError} {db : Database} {params : List String} {explain : Bool}
    {now : Instant} (h : p.loadQuery q = (.error e, p')) :
    p.runQuery q db params explain now = (.error e, db, p') := by
  unfold runQuery
  rw [h]

/-! ## The invariant -/

/-- A pipeline on a work directory as pipelines leave it. -/
structure Sane (config : Configuration) (compiled : String → Schema → Prop) (before : FileTree)
    (p : Pipeline) : Prop where
  configured : p.config = config
  compiler : p.cache.compiler = .inProcess
  settled : Settled config compiled before p.files
  coherent : Coherent config p.files p.loader

namespace Sane

theorem mono (sane : Sane config compiled before p)
    (h : ∀ text schema, compiled text schema → compiled' text schema) :
    Sane config compiled' before p := by
  refine ⟨sane.configured, sane.compiler, ?_, sane.coherent⟩
  rcases sane.settled with cramped | ⟨w, holds⟩ | idle
  · exact Or.inl cramped
  · exact Or.inr (Or.inl ⟨w, holds.mono h⟩)
  · exact Or.inr (Or.inr idle)

theorem withLoader (sane : Sane config compiled before p) (coherent : Coherent config p.files l) :
    Sane config compiled before { p with loader := l } :=
  ⟨sane.configured, sane.compiler, sane.settled, coherent⟩

theorem not_kept (sane : Sane config compiled before p)
    (absent : p.cache.lookup (Fingerprint.of text).artifactName = none) :
    p.loader.kept.find? (config.artifactPath (Fingerprint.of text).artifactName).parts = none := by
  by_contra kept
  obtain ⟨o, ho⟩ := Option.ne_none_iff_exists'.mp kept
  obtain ⟨place, bytes, hplace, hnode⟩ := exists_of_readUnit (sane.coherent text o ho).1
  rw [← sane.configured] at hplace
  have empty := (BuildCache.lookup_eq_none_iff hplace).mp absent
  exact absurd (hnode.symm.trans empty) (Option.some_ne_none _)

/-- **A build leaves the pipeline sane.** -/
theorem compileStored (source : Option String) (sound : config.Sound)
    (vacant : Vacant config before) (sane : Sane config compiled before p)
    (built : IsBuilt config name)
    (storable : Storable compiled p.cache name source)
    (closed : ∀ text, (Fingerprint.of text).artifactName = name →
      p.loader.kept.find? (config.artifactPath name).parts = none) :
    Sane config compiled before { p with cache := (p.cache.compileStored source name).2 } := by
  obtain ⟨hconfig, hcompiler⟩ := p.cache.compileStored_config source name
  obtain ⟨settled, leaves⟩ := sane.settled.compileStored sound vacant built sane.configured
    sane.compiler storable
  exact ⟨hconfig.trans sane.configured, hcompiler.trans sane.compiler, settled,
    sane.coherent.of_leaves leaves closed⟩

/-! ## Steps -/

theorem compileSchema (sound : config.Sound) (vacant : Vacant config before)
    (sane : Sane config compiled before p) :
    Sane config compiled before (p.compileSchema text).2 := by
  cases parsed : Sql.parseSchema text with
  | error e =>
      unfold Pipeline.compileSchema
      rw [parsed]
      exact sane
  | ok schema =>
      have name : p.config.definitionName = config.definitionName := by rw [sane.configured]
      have after := sane.compileStored (some (Listing.ofSchema schema).text) sound vacant
        (Or.inl name) (fun _ _ text same => absurd (same.trans name) (sound.apart text))
        (fun text same => absurd (same.trans name) (sound.apart text))
      rw [compileSchema_of_parsed parsed]
      cases done : p.cache.compileStored (some (Listing.ofSchema schema).text)
          p.config.definitionName with
      | mk result cache =>
          rw [done] at after
          cases result with
          | error e => exact after
          | ok status => exact after.withLoader (after.coherent.invalidate _)

theorem consult (sound : config.Sound) (sane : Sane config compiled before p)
    (issued : d.IsIssued config) (symbols : List String) :
    Sane config compiled before (p.consult d.artifact symbols) := by
  have loaded := sane.coherent.load_definition sound symbols
  rw [← issued] at loaded
  cases done : p.loader.load p.files d.artifact symbols with
  | mk result l =>
      rw [done] at loaded
      cases result with
      | error e =>
          rw [consult_of_error done]
          exact sane.withLoader loaded
      | ok u =>
          rw [consult_of_ok done]
          exact sane.withLoader (Coherent.release loaded u)

theorem compileQuery (sound : config.Sound) (vacant : Vacant config before)
    (sane : Sane config compiled before p)
    (h : p.cache.lookup (Fingerprint.of text).artifactName = none → compiled text d.schema) :
    Sane config compiled before (p.compileQuery text d).2 := by
  cases found : p.cache.lookup (Fingerprint.of text).artifactName with
  | some artifact =>
      rw [compileQuery_of_lookup found]
      exact sane
  | none =>
      cases hplanned : planned text d.schema with
      | error e =>
          rw [compileQuery_of_error found hplanned]
          exact sane
      | ok listing =>
          have after := sane.compileStored (some listing) sound vacant (Or.inr ⟨text, rfl⟩)
            (storable_of_planned (h found) found hplanned) (fun _ _ => sane.not_kept found)
          rw [compileQuery_of_ok found hplanned]
          cases done : p.cache.compileStored (some listing) (Fingerprint.of text).artifactName with
          | mk result cache =>
              rw [done] at after
              cases result with
              | error e => exact after
              | ok status =>
                  refine after.withLoader ?_
                  split
                  · exact after.coherent
                  · exact after.coherent.invalidate _

/-- **Building the unit of a query again leaves the pipeline sane.** -/
theorem recover (sound : config.Sound) (vacant : Vacant config before)
    (sane : Sane config compiled before p) (issued : q.IsIssued config) :
    Sane config compiled before (p.recover q).2 := by
  obtain ⟨text, hname, hartifact⟩ := issued
  have closed : (p.loader.invalidate q.artifact).kept.find?
      (config.artifactPath (Fingerprint.of text).artifactName).parts = none := by
    rw [hartifact, hname]
    exact OrderedMap.find?_erase_self
  -- The unit is no longer kept open, so its file may go and come.
  obtain ⟨settled, leaves⟩ := sane.settled.remove_unit text
  have evicted : Sane config compiled before
      ⟨(p.cache.evict q.name).2, p.loader.invalidate q.artifact⟩ := by
    rw [BuildCache.evict_eq]
    refine ⟨sane.configured, sane.compiler, ?_, ?_⟩
    · change Settled config compiled before (p.files.discard (p.config.artifactPath q.name))
      rw [sane.configured, hname]
      exact settled
    · change Coherent config (p.files.discard (p.config.artifactPath q.name)) _
      rw [sane.configured, hname]
      exact (sane.coherent.invalidate q.artifact).of_leaves leaves fun _ _ => closed
  have rebuilt := evicted.compileStored none sound vacant
    (Or.inr ⟨text, hname⟩) (by simp [Storable]) (fun _ _ => by rw [hname]; exact closed)
  rcases p.recover_outcomes q with ⟨e, cache, gone, stuck⟩ |
    ⟨cache, e, after, gone, done, failed⟩ | ⟨cache, status, after, gone, done, recovered⟩
  · rw [gone] at evicted
    rw [stuck]
    exact evicted
  · unfold BuildCache.rebuild at done
    rw [gone] at rebuilt
    dsimp only at rebuilt
    rw [done] at rebuilt
    rw [failed]
    exact rebuilt
  · unfold BuildCache.rebuild at done
    rw [gone] at rebuilt
    dsimp only at rebuilt
    rw [done] at rebuilt
    have loaded : Coherent config after.files ((p.loader.invalidate q.artifact).load
        after.files (config.artifactPath (Fingerprint.of text).artifactName)
        [EntryPoint.query]).2 := Coherent.load_query rebuilt.coherent text
    rw [← hname, ← hartifact] at loaded
    rw [recovered]
    exact rebuilt.withLoader loaded

theorem loadQuery (sound : config.Sound) (vacant : Vacant config before)
    (sane : Sane config compiled before p) (issued : q.IsIssued config) :
    Sane config compiled before (p.loadQuery q).2 := by
  rcases p.loadQuery_cases q with ⟨o, loads, loaded⟩ | ⟨e, -, failed | failed⟩
  · obtain ⟨text, hname, hartifact⟩ := issued
    have kept := sane.coherent.load_query text
    rw [← hname, ← hartifact, Loader.load_eq_ok loads] at kept
    rw [loaded]
    exact sane.withLoader kept
  · rw [failed]
    exact sane
  · rw [failed]
    exact sane.recover sound vacant issued

theorem runQuery (sound : config.Sound) (vacant : Vacant config before)
    (sane : Sane config compiled before p) (issued : q.IsIssued config) (db : Database)
    (params : List String) (explain : Bool) (now : Instant) :
    Sane config compiled before (p.runQuery q db params explain now).2.2 := by
  have after := sane.loadQuery sound vacant issued
  cases done : p.loadQuery q with
  | mk result p' =>
      rw [done] at after
      cases result with
      | error e =>
          rw [runQuery_of_error done]
          exact after
      | ok u =>
          rw [runQuery_of_ok done]
          exact after.withLoader (after.coherent.release u)

/-- **Each step leaves the pipeline sane.** -/
theorem step (sound : config.Sound) (vacant : Vacant config before)
    (sane : Sane config compiled before p) (s : Step) (issued : s.IsIssued config)
    (h : ∀ text d, s = .compileQuery text d →
      p.cache.lookup (Fingerprint.of text).artifactName = none → compiled text d.schema) :
    Sane config compiled before (p.step s) := by
  cases s with
  | compileSchema text => exact sane.compileSchema sound vacant
  | openDatabase d now =>
      rw [step_openDatabase, openDatabase_snd]
      exact sane.consult sound issued _
  | getSize d db table =>
      rw [step_getSize, getSize_snd]
      exact sane.consult sound issued _
  | compileQuery text d => exact sane.compileQuery sound vacant (h text d rfl)
  | runQuery q db params explain now => exact sane.runQuery sound vacant issued db params explain now
  | shutdown =>
      have closed : p.loader.shutdown.2.kept = .empty := by
        unfold Loader.shutdown
        dsimp only
        split <;> rfl
      exact sane.withLoader (Coherent.of_nothing closed)
  | restart =>
      exact ⟨sane.configured, sane.compiler, sane.settled, Coherent.of_nothing rfl⟩

end Sane

end Pipeline

end TemporalDB
