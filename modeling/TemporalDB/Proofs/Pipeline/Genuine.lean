import TemporalDB.Proofs.Listing.Constants
import TemporalDB.Proofs.Pipeline.Definition
import TemporalDB.Proofs.Pipeline.Transparency
import TemporalDB.Proofs.WorkDirectory.Genuine

/-!
# The units that runs leave

Runs that begin with an empty work directory and that alone write to it leave genuine units there,
whatever comes of their steps, and none of a query that they failed to compile.
-/

namespace TemporalDB

open FileTree

variable {config : Configuration} {returned returned' : Schema → Prop} {before files files' : FileTree}
  {name text listing : String} {source : Option String} {w : List String} {c : BuildCache}

/-! ## Builds in an empty work directory -/

/-- The work directory is empty, or it will be when it is made. -/
def Barren (config : Configuration) (before : FileTree) : Prop :=
  ∀ files, files = before ∨ before.createDirectories config.workDir = .ok files →
    ∀ w, files.Leads config.workDir w → ∀ name, files.node? (w ++ [name]) = none

theorem Unmade.node?_eq_none (unmade : Unmade config before files) (barren : Barren config before)
    (leads : files.Leads config.workDir w) (name : String) : files.node? (w ++ [name]) = none :=
  barren files (Or.inl (unmade.eq_of_leads leads)) w leads name

/-- The work directory was made, and the units in it are genuine. -/
structure Tended (config : Configuration) (returned : Schema → Prop) (files : FileTree) : Prop where
  made : files.createDirectories config.workDir = .ok files
  genuine : ∀ w, files.Leads config.workDir w → Genuine config returned w files

/-- What builds may leave of the files there were before: the work directory has not been made, or
the units in it are genuine. -/
structure Faithful (config : Configuration) (returned : Schema → Prop) (before : FileTree)
    (c : BuildCache) : Prop where
  configured : c.config = config
  compiler : c.compiler = .inProcess
  files : Unmade config before c.files ∨ Tended config returned c.files

namespace Tended

theorem of_barren (barren : Barren config before)
    (made : before.createDirectories config.workDir = .ok files) : Tended config returned files :=
  ⟨createDirectories_again made (FileTree.Grows.refl files).toKeeps,
    fun w leads => .of_empty (barren files (Or.inr made) w leads)⟩

theorem mono (tended : Tended config returned files)
    (h : ∀ schema, returned schema → returned' schema) : Tended config returned' files :=
  ⟨tended.made, fun w leads => (tended.genuine w leads).mono h⟩

theorem revise (tended : Tended config returned files) (distinct : config.Distinct)
    (built : IsBuilt config name) (revision : Revision config name source files files')
    (given : IsPlanned config returned name source) : Tended config returned files' := by
  have agrees := revision.agrees
  refine ⟨createDirectories_again tended.made agrees.keeps, ?_⟩
  intro w leads
  have leads' := agrees.leads_iff.mp leads
  exact (tended.genuine w leads').revise distinct leads' built revision given

theorem discard (tended : Tended config returned files) (distinct : config.Distinct)
    (built : IsBuilt config name) :
    Tended config returned (files.discard (config.artifactPath name)) :=
  tended.revise distinct built revision_discard fun _ none => nomatch none

variable [Tags]

/-- **A build leaves the units genuine.** -/
theorem compileStored (tended : Tended config returned c.files) (distinct : config.Distinct)
    (configured : c.config = config) (inProcess : c.compiler = .inProcess)
    (built : IsBuilt config name)
    (given : IsPlanned config returned name source) :
    Tended config returned (c.compileStored source name).2.files := by
  subst configured
  rcases BuildCache.revision_compileStored inProcess tended.made source name with
    agrees | revision
  · exact ⟨createDirectories_again tended.made agrees.keeps,
      fun w leads => (tended.genuine w (agrees.leads_iff.mp leads)).of_temporary agrees⟩
  · exact tended.revise distinct built revision given

theorem lookup_of_failed (tended : Tended config returned c.files) (configured : c.config = config)
    (inProcess : c.compiler = .inProcess) (absent : c.lookup name = none) {e : BuildError}
    (failed : (c.compileStored source name).1 = .error e) :
    (c.compileStored source name).2.lookup name = none := by
  subst configured
  rw [BuildCache.lookup_eq_none_iff_look] at absent ⊢
  rw [(c.compileStored_config source name).1]
  rcases BuildCache.compileStored_cases source name with
    ⟨ran, prepares, compiled⟩ | ⟨-, e, after, abandons, refused⟩
  · have stored := prepares.agrees_of_made tended.made
    rw [compiled] at failed ⊢
    rcases BuildCache.compile_cases_of_inProcess (c := { c with files := ran }) inProcess
      name with ⟨target, bytes, -, done⟩ | ⟨e, done⟩
    · rw [done] at failed
      cases failed
    · rw [done]
      -- nothing was at the path before, and storing a listing makes no directory
      have free : ran.look (c.config.artifactPath name) ≠ some .directory := by
        rw [Ne, stored.look_eq_directory_iff, absent]
        exact (Option.some_ne_none _).symm
      obtain ⟨q, base, -, named, -, path⟩ := c.config.exists_paths name
      dsimp only
      rw [path] at free ⊢
      exact look_discard named free
  · have here : c.compileStored source name = (.error e, { c with files := after }) :=
      refused c.compiler
    rw [here]
    have agrees : c.files.AgreesBut after IsTemporary := by
      rcases abandons with ⟨e', failed⟩ | ⟨made, hmade, agrees⟩
      · cases (createDirectories_eq_ok_iff.mp tended.made).symm.trans failed
      · cases tended.made.symm.trans hmade
        exact agrees
    rw [Option.eq_none_iff_forall_ne_some] at absent ⊢
    intro node found
    obtain ⟨place, hplace, hnode⟩ := look_eq_some_iff.mp found
    rw [agrees.place_iff] at hplace
    rw [agrees.elsewhere _ (BuildCache.not_isTemporary_place_artifact hplace)] at hnode
    exact absent node (look_eq_some_iff.mpr ⟨place, hplace, hnode⟩)

end Tended

namespace Faithful

theorem mono (faithful : Faithful config returned before c)
    (h : ∀ schema, returned schema → returned' schema) : Faithful config returned' before c :=
  ⟨faithful.configured, faithful.compiler, faithful.files.imp_right (·.mono h)⟩

theorem genuine (faithful : Faithful config returned before c) (barren : Barren config before)
    (leads : c.files.Leads config.workDir w) : Genuine config returned w c.files := by
  rcases faithful.files with unmade | tended
  · exact .of_empty fun name => unmade.node?_eq_none barren leads name
  · exact tended.genuine w leads

theorem evict (faithful : Faithful config returned before c) (barren : Barren config before)
    (distinct : config.Distinct) (text : String) :
    Faithful config returned before (c.evict (Fingerprint.of text).artifactName).2 := by
  obtain ⟨configured, inProcess, hfiles⟩ := faithful
  rw [BuildCache.evict_eq]
  refine ⟨configured, inProcess, ?_⟩
  dsimp only
  rw [configured]
  rcases hfiles with unmade | tended
  · left
    rcases discard_cases c.files (config.artifactPath (Fingerprint.of text).artifactName) with
      stays | ⟨place, bytes, hplace, hnode, -⟩
    · rwa [stays]
    · -- there was no unit to be taken away
      obtain ⟨-, w, leads, there⟩ := exists_of_place_unit hplace
      rw [there, unmade.node?_eq_none barren leads] at hnode
      cases hnode
  · exact Or.inr (tended.discard distinct (Or.inr ⟨text, rfl⟩))

theorem lookup_evict (faithful : Faithful config returned before c) (barren : Barren config before)
    (text : String) : (c.evict (Fingerprint.of text).artifactName).2.lookup
      (Fingerprint.of text).artifactName = none := by
  have free : c.files.look (c.config.artifactPath (Fingerprint.of text).artifactName) ≠
      some .directory := by
    rw [faithful.configured]
    intro found
    obtain ⟨place, hplace, hnode⟩ := look_eq_some_iff.mp found
    obtain ⟨-, w, leads, there⟩ := exists_of_place_unit hplace
    rw [there] at hnode
    obtain ⟨_, _, _, -, -, file, -⟩ := (faithful.genuine barren leads).unit _ _ hnode
    cases file
  rw [BuildCache.lookup_eq_none_iff_look, BuildCache.evict_eq]
  dsimp only
  rw [artifactPath_artifactName] at free ⊢
  exact look_discard (isFileName_unitName text) free

variable [Tags]

/-- What is built is built in files that are tended, or the work directory cannot be made. -/
theorem compileStored_cases (faithful : Faithful config returned before c)
    (barren : Barren config before) (source : Option String)
    (name : String) :
    (∃ files, Tended config returned files ∧
      c.compileStored source name = { c with files }.compileStored source name ∧
      (c.files = files ∨ before.createDirectories config.workDir = .ok files)) ∨
    ∃ e left, c.compileStored source name = (.error e, { c with files := left }) ∧
      Unmade config before left := by
  obtain ⟨rfl, inProcess, (same | ⟨e, failed⟩) | tended⟩ := faithful
  · subst same
    rcases pave_cases c.files c.config.workDir with ⟨files, made, -⟩ | ⟨e, left, -, failed⟩
    · have tended : Tended c.config returned files := .of_barren barren made
      exact Or.inl ⟨files, tended, BuildCache.compileStored_of_made made tended.made, Or.inr made⟩
    · exact Or.inr ⟨_, left, BuildCache.compileStored_of_unpaved failed _ _, Or.inr ⟨e, failed⟩⟩
  · -- what could not be made cannot be made now
    obtain ⟨-, e', again⟩ := pave_of_error failed
    exact Or.inr ⟨_, c.files, BuildCache.compileStored_of_unpaved again _ _, Or.inr ⟨e, failed⟩⟩
  · exact Or.inl ⟨c.files, tended, rfl, Or.inl rfl⟩

/-- **A build leaves the files faithful.** -/
theorem compileStored (faithful : Faithful config returned before c) (barren : Barren config before)
    (distinct : config.Distinct) (built : IsBuilt config name)
    (given : IsPlanned config returned name source) :
    Faithful config returned before (c.compileStored source name).2 := by
  obtain ⟨hconfig, hcompiler⟩ := c.compileStored_config source name
  refine ⟨hconfig.trans faithful.configured, hcompiler.trans faithful.compiler, ?_⟩
  rcases faithful.compileStored_cases barren source name with
    ⟨files, tended, same, -⟩ | ⟨e, left, failed, unmade⟩
  · rw [same]
    exact Or.inr (Tended.compileStored (c := { c with files }) tended distinct faithful.configured
      faithful.compiler built given)
  · rw [failed]
    exact Or.inl unmade

theorem lookup_of_failed (faithful : Faithful config returned before c)
    (barren : Barren config before)
    (absent : c.lookup (Fingerprint.of text).artifactName = none) {e : BuildError}
    (failed : (c.compileStored source (Fingerprint.of text).artifactName).1 = .error e) :
    (c.compileStored source (Fingerprint.of text).artifactName).2.lookup
      (Fingerprint.of text).artifactName = none := by
  rcases faithful.compileStored_cases barren source (Fingerprint.of text).artifactName with
    ⟨files, tended, same, unchanged⟩ | ⟨e, left, idle, unmade⟩
  · have absent' : ({ c with files } : BuildCache).lookup (Fingerprint.of text).artifactName =
        none := by
      rcases unchanged with rfl | fresh
      · exact absent
      · rw [BuildCache.lookup_eq_none_iff_look, Option.eq_none_iff_forall_ne_some]
        intro node found
        obtain ⟨place, hplace, hnode⟩ := look_eq_some_iff.mp found
        dsimp only at hplace hnode
        rw [faithful.configured] at hplace
        obtain ⟨-, w, leads, there⟩ := exists_of_place_unit hplace
        rw [there, barren files (Or.inr fresh) w leads] at hnode
        cases hnode
    rw [same] at failed ⊢
    exact Tended.lookup_of_failed (c := { c with files }) tended faithful.configured
      faithful.compiler absent' failed
  · rw [idle, BuildCache.lookup_eq_none_iff_look, Option.eq_none_iff_forall_ne_some]
    intro node found
    obtain ⟨place, hplace, hnode⟩ := look_eq_some_iff.mp found
    dsimp only at hplace hnode
    rw [faithful.configured] at hplace
    obtain ⟨-, w, leads, there⟩ := exists_of_place_unit hplace
    rw [there, unmade.node?_eq_none barren leads] at hnode
    cases hnode

end Faithful

theorem ExecutionUnit.runQuery_ne_build {u : ExecutionUnit} {db : Database} {params : List String}
    {explain : Bool} {now : Instant} {e : BuildError} :
    (u.runQuery db params explain now).1 ≠ .error (.build e) := by
  unfold ExecutionUnit.runQuery
  cases entered : u.entry EntryPoint.query with
  | error e' =>
      unfold ExecutionUnit.entry at entered
      split at entered
      · cases entered
      · cases entered
        simp
  | ok program =>
      cases program with
      | definition schema => simp
      | query q =>
          dsimp only
          cases (Execution.runQuery q db params explain now).1 <;> simp [Except.mapError]

namespace Pipeline

section

variable [Tags] {p start : Pipeline} {steps : List Step} {s : Step} {d : Definition} {q : QueryArtifact}

/-! ## Runs in order -/

/-- In the course of a run a schema was compiled to the definition. -/
def Returned (start : Pipeline) (steps : List Step) (d : Definition) : Prop :=
  ∃ earlier text later, steps = earlier ++ .compileSchema text :: later ∧
    ((start.run earlier).compileSchema text).1 = .ok d

/-- In the course of a run a query was compiled. -/
def ReturnedQuery (start : Pipeline) (steps : List Step) (q : QueryArtifact) : Prop :=
  ∃ earlier text d later, steps = earlier ++ .compileQuery text d :: later ∧
    ((start.run earlier).compileQuery text d).1 = .ok q

def Step.IsGiven (start : Pipeline) (earlier : List Step) : Step → Prop
  | .openDatabase d _ => Returned start earlier d
  | .getSize d _ _ => Returned start earlier d
  | .compileQuery _ d => Returned start earlier d
  | .runQuery q _ _ _ _ => ReturnedQuery start earlier q
  | _ => True

/-- Each step of the run is given only what was returned before it. -/
def Ordered (start : Pipeline) (steps : List Step) : Prop :=
  ∀ earlier s later, steps = earlier ++ s :: later → s.IsGiven start earlier

theorem ordered_nil : Ordered start [] := by
  intro earlier s later split
  exact absurd split (by simp)

theorem ordered_snoc : Ordered start (steps ++ [s]) ↔ Ordered start steps ∧ s.IsGiven start steps := by
  constructor
  · intro ordered
    refine ⟨?_, ordered steps s [] rfl⟩
    rintro earlier s' later rfl
    exact ordered earlier s' (later ++ [s]) (by simp)
  · rintro ⟨ordered, given⟩ earlier s' later split
    rcases snoc_split split with ⟨rfl, rfl⟩ | ⟨later, split⟩
    · exact given
    · exact ordered earlier s' later split

theorem Returned.snoc (h : Returned start steps d) : Returned start (steps ++ [s]) d := by
  obtain ⟨earlier, text, later, rfl, done⟩ := h
  exact ⟨earlier, text, later ++ [s], by simp, done⟩

/-- What was returned in the course of a run was returned before its last step, or by it. -/
theorem ReturnedQuery.of_snoc (h : ReturnedQuery start (steps ++ [s]) q) :
    ReturnedQuery start steps q ∨
      ∃ text d, s = .compileQuery text d ∧ ((start.run steps).compileQuery text d).1 = .ok q := by
  obtain ⟨earlier, text, d, later, split, done⟩ := h
  rcases snoc_split split with ⟨rfl, rfl⟩ | ⟨later, split⟩
  · exact Or.inr ⟨text, d, rfl, done⟩
  · exact Or.inl ⟨earlier, text, d, later, split, done⟩

/-! ## Steps -/

/-- Running a query builds nothing, or the unit is taken away, and then it may be built again. -/
theorem cache_runQuery (p : Pipeline) (q : QueryArtifact) (db : Database) (params : List String)
    (explain : Bool) (now : Instant) :
    let ran := p.runQuery q db params explain now
    let evicted := (p.cache.evict q.name).2
    (ran.2.2.cache = p.cache ∧ ∀ e, ran.1 ≠ .error (.build e)) ∨ ran.2.2.cache = evicted ∨
      ran.2.2.cache = (evicted.rebuild q.name).2 ∧
        ∀ e, ran.1 = .error (.build e) → (evicted.rebuild q.name).1 = .error e := by
  intro ran evicted
  -- running the query, once it is loaded, leaves the cache alone and fails in no build
  have loaded : ran.2.2.cache = (p.loadQuery q).2.cache ∧
      ∀ e, ran.1 = .error (.build e) → (p.loadQuery q).1 = .error (.build e) := by
    unfold ran
    cases done : p.loadQuery q with
    | mk result p' =>
        cases result with
        | error e =>
            rw [runQuery_of_error done]
            exact ⟨rfl, fun e' same => congrArg _ (Except.error.inj same)⟩
        | ok u =>
            rw [runQuery_of_ok done]
            exact ⟨rfl, fun e' same => absurd same ExecutionUnit.runQuery_ne_build⟩
  rcases p.loadQuery_cases q with ⟨o, -, done⟩ | ⟨e, -, done | done⟩
  · rw [done] at loaded
    exact Or.inl ⟨loaded.1, fun e same => nomatch loaded.2 e same⟩
  · rw [done] at loaded
    exact Or.inl ⟨loaded.1, fun e same => nomatch loaded.2 e same⟩
  · rw [done] at loaded
    refine Or.inr ?_
    unfold evicted
    rcases p.recover_outcomes q with ⟨e, cache, gone, stuck⟩ |
      ⟨cache, e, after, gone, rebuilt, gaveUp⟩ | ⟨cache, status, after, gone, rebuilt, recovered⟩
    · rw [stuck] at loaded
      rw [gone]
      exact Or.inl loaded.1
    · rw [gaveUp] at loaded
      rw [gone]
      dsimp only
      rw [rebuilt]
      exact Or.inr ⟨loaded.1, fun e' same => by cases loaded.2 e' same; rfl⟩
    · rw [recovered] at loaded
      rw [gone]
      dsimp only
      rw [rebuilt]
      refine Or.inr ⟨loaded.1, fun e' same => ?_⟩
      have failed := loaded.2 e' same
      dsimp only at failed
      cases loaded_again : ((p.loader.invalidate q.artifact).load after.files q.artifact
          [EntryPoint.query]).1 with
      | error e => rw [loaded_again] at failed; cases failed
      | ok u => rw [loaded_again] at failed; cases failed

theorem faithful_compileSchema (faithful : Faithful config returned before p.cache)
    (barren : Barren config before) (distinct : config.Distinct) :
    Faithful config returned before (p.compileSchema text).2.cache := by
  cases parsed : Sql.parseSchema text with
  | error e =>
      unfold compileSchema
      rw [parsed]
      exact faithful
  | ok schema =>
      have definition : p.config.definitionName = config.definitionName := by
        rw [show p.config = config from faithful.configured]
      have built : Faithful config returned before (p.cache.compileStored
          (some (Listing.ofSchema schema).text) p.config.definitionName).2 :=
        faithful.compileStored barren distinct (Or.inl definition)
          (isPlanned_definition definition)
      rw [compileSchema_of_parsed parsed]
      cases done : p.cache.compileStored (some (Listing.ofSchema schema).text)
          p.config.definitionName with
      | mk result cache =>
          rw [done] at built
          cases result <;> exact built

theorem faithful_compileQuery (faithful : Faithful config returned before p.cache)
    (barren : Barren config before) (distinct : config.Distinct)
    (given : returned d.schema) :
    Faithful config returned before (p.compileQuery text d).2.cache := by
  cases found : p.cache.lookup (Fingerprint.of text).artifactName with
  | some artifact =>
      rw [compileQuery_of_lookup found]
      exact faithful
  | none =>
      cases hplanned : planned text d.schema with
      | error e =>
          rw [compileQuery_of_error found hplanned]
          exact faithful
      | ok listing =>
          have built := faithful.compileStored barren distinct (Or.inr ⟨text, rfl⟩)
            (isPlanned_of_planned given hplanned)
          rw [compileQuery_of_ok found hplanned]
          cases done : p.cache.compileStored (some listing) (Fingerprint.of text).artifactName with
          | mk result cache =>
              rw [done] at built
              cases result <;> exact built

theorem faithful_runQuery (faithful : Faithful config returned before p.cache)
    (barren : Barren config before) (distinct : config.Distinct)
    (issued : q.IsIssued config) (db : Database) (params : List String) (explain : Bool)
    (now : Instant) :
    Faithful config returned before (p.runQuery q db params explain now).2.2.cache := by
  obtain ⟨text, hname, -⟩ := issued
  have evicted := faithful.evict barren distinct text
  rw [← hname] at evicted
  rcases p.cache_runQuery q db params explain now with ⟨same, -⟩ | same | ⟨same, -⟩
  · rw [same]
    exact faithful
  · rw [same]
    exact evicted
  · rw [same]
    exact evicted.compileStored barren distinct (Or.inr ⟨text, hname⟩)
      fun _ none => nomatch none

/-- **Every step leaves the files faithful.** -/
theorem faithful_step (faithful : Faithful config returned before p.cache)
    (barren : Barren config before) (distinct : config.Distinct)
    (given : ∀ text d, s = .compileQuery text d → returned d.schema)
    (issued : ∀ q db params explain now, s = .runQuery q db params explain now →
      q.IsIssued config) : Faithful config returned before (p.step s).cache := by
  cases s with
  | compileSchema text =>
      rw [step_compileSchema]
      exact faithful_compileSchema faithful barren distinct
  | openDatabase d now =>
      rw [step_openDatabase, openDatabase_snd, cache_consult]
      exact faithful
  | getSize d db table =>
      rw [step_getSize, getSize_snd, cache_consult]
      exact faithful
  | compileQuery text d =>
      rw [step_compileQuery]
      exact faithful_compileQuery faithful barren distinct (given text d rfl)
  | runQuery q db params explain now =>
      rw [step_runQuery]
      exact faithful_runQuery faithful barren distinct (issued q db params explain now rfl)
        db params explain now
  | shutdown => exact faithful
  | restart => exact ⟨faithful.configured, faithful.compiler, faithful.files⟩

/-- **Runs leave the files faithful**, and what they return of queries has their paths. -/
theorem faithful_run (barren : Barren config before)
    (distinct : config.Distinct) (ordered : Ordered (new config .inProcess before) steps) :
    let start := new config .inProcess before
    Faithful config (fun schema => ∃ d, Returned start steps d ∧ d.schema = schema) before
        (start.run steps).cache ∧
      ∀ q, ReturnedQuery start steps q → q.IsIssued config := by
  intro start
  induction steps using List.reverseRecOn with
  | nil =>
      refine ⟨⟨rfl, rfl, Or.inl (Or.inl rfl)⟩, ?_⟩
      rintro q ⟨earlier, text, d, later, split, -⟩
      exact absurd split (by simp)
  | append_singleton steps s ih =>
      obtain ⟨before_s, given⟩ := ordered_snoc.mp ordered
      obtain ⟨faithful, issued⟩ := ih before_s
      -- what was returned before the last step is returned in the longer run, too
      have later : Faithful config
          (fun schema => ∃ d, Returned start (steps ++ [s]) d ∧ d.schema = schema) before
          (start.run steps).cache :=
        faithful.mono fun schema ⟨d, h, same⟩ => ⟨d, h.snoc, same⟩
      rw [run_snoc]
      refine ⟨faithful_step later barren distinct ?_ ?_, ?_⟩
      · rintro text d rfl
        exact ⟨d, Returned.snoc given, rfl⟩
      · rintro q db params explain now rfl
        exact issued q given
      · intro q h
        rcases h.of_snoc with earlier | ⟨text, d, rfl, done⟩
        · exact issued q earlier
        · have here := isIssued_of_compileQuery done
          rwa [show (start.run steps).config = config from faithful.configured] at here

/-! ## What fails has no unit -/

/-- A query that is not compiled has no unit, and had none. -/
theorem lookup_of_compileQuery_eq_error (faithful : Faithful config returned before p.cache)
    (barren : Barren config before) {e : QueryError}
    (failed : (p.compileQuery text d).1 = .error e) :
    p.cache.lookup (Fingerprint.of text).artifactName = none ∧
      (p.compileQuery text d).2.cache.lookup (Fingerprint.of text).artifactName = none := by
  cases absent : p.cache.lookup (Fingerprint.of text).artifactName with
  | some artifact =>
      rw [compileQuery_of_lookup absent] at failed
      cases failed
  | none =>
      refine ⟨rfl, ?_⟩
      cases hplanned : planned text d.schema with
      | error e' =>
          rw [compileQuery_of_error absent hplanned]
          exact absent
      | ok listing =>
          rw [compileQuery_of_ok absent hplanned] at failed ⊢
          cases done : p.cache.compileStored (some listing) (Fingerprint.of text).artifactName with
          | mk result cache =>
              rw [done] at failed
              cases result with
              | ok status => cases failed
              | error e' =>
                  have gone := faithful.lookup_of_failed barren absent (congrArg Prod.fst done)
                  rwa [done] at gone

theorem lookup_of_runQuery_eq_error (faithful : Faithful config returned before p.cache)
    (barren : Barren config before) (distinct : config.Distinct)
    (issued : q.IsIssued config) {db : Database} {params : List String} {explain : Bool}
    {now : Instant} {e : BuildError}
    (failed : (p.runQuery q db params explain now).1 = .error (.build e)) :
    (p.runQuery q db params explain now).2.2.cache.lookup q.name = none := by
  obtain ⟨text, hname, -⟩ := issued
  have gone := faithful.lookup_evict barren text
  have evicted := faithful.evict barren distinct text
  rw [← hname] at gone evicted
  rcases p.cache_runQuery q db params explain now with ⟨-, built⟩ | same | ⟨same, rebuilt⟩
  · exact absurd failed (built e)
  · rw [same]
    exact gone
  · rw [same]
    have failed' := rebuilt e failed
    rw [hname] at gone failed' ⊢
    rw [hname] at evicted
    exact evicted.lookup_of_failed barren gone failed'

/-- **Units are genuine** in a work directory that was empty and that only a run of pipelines writes
to, whatever comes of its steps: each is that of the listing beside it, and the listing of a query is
one that the query was planned to, for a schema that was compiled. A query that is not compiled, or
not built again, has no unit. -/
theorem units_genuine (distinct : config.Distinct)
    (barren : Barren config before) (ordered : Ordered (new config .inProcess before) steps) :
    let start := new config .inProcess before
    let p := start.run steps
    (∀ w, p.files.Leads config.workDir w →
      (∀ name node, p.files.node? (w ++ [name ++ ".unit"]) = some node → ∃ listing u,
        p.files.node? (w ++ [name ++ ".src"]) = some (.file listing.toUTF8) ∧
          Assembly.assemble listing = .ok u ∧ node = .file u.artifact.toUTF8) ∧
      ∀ text, (Fingerprint.of text).artifactName ≠ config.definitionName →
        p.files.node? (w ++ [unitName text]) ≠ none → ∃ text₀ d listing,
          Returned start steps d ∧ Fingerprint.of text₀ = Fingerprint.of text ∧
            planned text₀ d.schema = .ok listing ∧
            p.files.node? (w ++ [listingName text]) = some (.file listing.toUTF8)) ∧
    (∀ text d e, (p.compileQuery text d).1 = .error e →
      p.cache.lookup (Fingerprint.of text).artifactName = none ∧
        (p.compileQuery text d).2.cache.lookup (Fingerprint.of text).artifactName = none) ∧
    ∀ q db params explain now e, ReturnedQuery start steps q →
      (p.runQuery q db params explain now).1 = .error (.build e) →
        (p.runQuery q db params explain now).2.2.cache.lookup q.name = none := by
  intro start p
  obtain ⟨faithful, issued⟩ := faithful_run barren distinct ordered
  refine ⟨?_, ?_, ?_⟩
  · intro w leads
    have genuine := faithful.genuine barren leads
    have units : ∀ name node, p.files.node? (w ++ [name ++ ".unit"]) = some node → ∃ listing u,
        p.files.node? (w ++ [name ++ ".src"]) = some (.file listing.toUTF8) ∧
          Assembly.assemble listing = .ok u ∧ node = .file u.artifact.toUTF8 := by
      intro name node found
      obtain ⟨listing, u, -, stored, assembled, same, -⟩ := genuine.unit name node found
      exact ⟨listing, u, stored, assembled, same⟩
    refine ⟨units, ?_⟩
    intro text ne found
    obtain ⟨node, hnode⟩ := Option.ne_none_iff_exists'.mp found
    obtain ⟨listing, -, stored, -⟩ := units _ node hnode
    obtain ⟨text₀, schema, listing', ⟨d, returned, rfl⟩, hof, hplanned, same⟩ :=
      genuine.query text _ ne stored
    exact ⟨text₀, d, listing', returned, hof, hplanned, stored.trans (congrArg some same)⟩
  · intro text d e failed
    exact lookup_of_compileQuery_eq_error faithful barren failed
  · intro q db params explain now e returned failed
    exact lookup_of_runQuery_eq_error faithful barren distinct (issued q returned) failed

end

/-! ## An empty work directory -/

theorem barren_furnished : Barren .default furnished := by
  rintro files (rfl | made) w leads name
  · rw [leads.unique leads_furnished]
    exact node?_furnished
  · exact node?_made_furnished made leads

def querying : List Step := [.compileSchema (declaring "a"), .compileQuery selecting (defined "a")]

theorem stored_querying :
    let start := new .default .inProcess furnished
    (start.compileSchema (declaring "a")).1 = .ok (defined "a") ∧
      (start.run querying).files.Leads Configuration.default.workDir ["tmp"] ∧
      (start.run querying).files.node? (["tmp"] ++ [unitName selecting]) ≠ none := by
  intro start
  have parsed : Sql.parseSchema (declaring "a") = .ok (declared "a") :=
    parseSchema_declaring (Or.inl rfl)
  have ready : Ready .default (fun _ _ => True) ["tmp"] start := ⟨rfl, rfl, holds_furnished⟩
  obtain ⟨p₁, h₁, ready₁, allows₁, lookups₁⟩ := ready.compileSchema_eq_ok sound_default
    (placeable_furnished (by decide) (by decide)) parsed (assemble_of_parseSchema parsed)
  have absent : p₁.cache.lookup (Fingerprint.of selecting).artifactName = none := by
    rw [lookups₁, ready.lookup_eq_none_iff]
    exact node?_furnished
  obtain ⟨q, p₂, h₂, ready₂, -, stored₂⟩ := ready₁.compileQuery_eq_ok (d := defined "a")
    sound_default (allows₁ _ (placeable_query selecting)) trivial absent planned_declared assemble_selectingListing
  have run₂ : start.run querying = p₂ := by
    unfold querying
    rw [run_cons, step_compileSchema, h₁, run_cons, step_compileQuery, h₂, run_nil]
  rw [run₂]
  exact ⟨congrArg Prod.fst h₁, ready₂.holds.leads, mt ready₂.lookup_eq_none_iff.mpr stored₂⟩

theorem units_genuine_querying :
    let start := new .default .inProcess furnished
    let p := start.run querying
    p.files.node? (["tmp"] ++ [unitName selecting]) ≠ none ∧ ∃ text₀ d listing,
      Returned start querying d ∧ Fingerprint.of text₀ = Fingerprint.of selecting ∧
        planned text₀ d.schema = .ok listing ∧
        p.files.node? (["tmp"] ++ [listingName selecting]) = some (.file listing.toUTF8) := by
  intro start p
  obtain ⟨compiled, leads, stored⟩ := stored_querying
  have first : Ordered start ([] ++ [.compileSchema (declaring "a")]) :=
    ordered_snoc.mpr ⟨ordered_nil, trivial⟩
  have ordered : Ordered start ([.compileSchema (declaring "a")] ++
      [.compileQuery selecting (defined "a")]) :=
    ordered_snoc.mpr ⟨first, [], declaring "a", [], rfl, compiled⟩
  have plain : Configuration.default.Distinct := Configuration.distinct_of_plain (by decide)
  exact ⟨stored, ((units_genuine plain barren_furnished ordered).1 _ leads).2
    selecting (sound_default.apart selecting) stored⟩

/-! ## A definition in the place of a query -/

/-- The listing of a definition is not one that a query is planned to. -/
theorem planned_ne_definition {schema schema' : Schema} (admitted : schema.Admitted)
    (parsed : Sql.parseSchema text = .ok schema') {query : String} :
    planned query schema ≠ .ok (Listing.ofSchema schema').text := by
  intro hplanned
  have assembled := assemble_of_parseSchema parsed
  cases hquery : Sql.parseQuery query with
  | error e => cases (planned_of_parse_error hquery).symm.trans hplanned
  | ok q =>
      cases hplan : Listing.ofQuery q schema with
      | error e => cases (planned_of_plan_error hquery hplan).symm.trans hplanned
      | ok source =>
          have same := Except.ok.inj ((planned_of_plan hquery hplan).symm.trans hplanned)
          rw [← same] at assembled
          obtain ⟨_, _, -, -, unit⟩ := Listing.assembled_eq hquery admitted hplan assembled
          exact nomatch congrArg CompiledUnit.program unit

/-- The default configuration, but the definition has the name of a query. -/
def aliased : Configuration :=
  { Configuration.default with definitionName := (Fingerprint.of selecting).artifactName }

/-- With that configuration the schema is compiled, and its listing is where the query's would be. -/
theorem exists_compileSchema_aliased : ∃ d p', (new aliased .inProcess furnished).compileSchema
    (declaring "a") = (.ok d, p') ∧ p'.files.Leads aliased.workDir ["tmp"] ∧
      p'.files.node? (["tmp"] ++ [unitName selecting]) ≠ none ∧
      p'.files.node? (["tmp"] ++ [listingName selecting]) =
        some (.file (Listing.ofSchema (declared "a")).text.toUTF8) := by
  have parsed : Sql.parseSchema (declaring "a") = .ok (declared "a") :=
    parseSchema_declaring (Or.inl rfl)
  let plain : BuildCache := ⟨.default, .inProcess, furnished, 0⟩
  have holds : Holds .default (fun _ _ => True) ["tmp"] plain.files := holds_furnished
  -- What is built is the same as with the default configuration, under the name of the query.
  have done := holds.compileStored_eq_ok sound_default (Or.inr ⟨selecting, rfl⟩) rfl rfl
    (assemble_of_parseSchema parsed) (placeable_query selecting)
  have same : aliased.workDir = plain.config.workDir := rfl
  have built := BuildCache.compileStored_config_congr same
    (some (Listing.ofSchema (declared "a")).text) (Fingerprint.of selecting).artifactName
  rw [done] at built
  refine ⟨_, _, compileSchema_of_built parsed built, ?_, ?_, ?_⟩
  · refine Leads.mono (leads_furnished.mono (keeps_assign _ (by simp) ?_))
      (keeps_assign _ (by simp) ?_)
    · rw [node?_furnished]
      exact (Option.some_ne_none _).symm
    · rw [node?_assign_of_name_ne append_src_ne_append_unit.symm, node?_furnished]
      exact (Option.some_ne_none _).symm
  · exact Option.ne_none_iff_exists'.mpr ⟨_, node?_assign_self⟩
  · exact (node?_assign_of_name_ne append_src_ne_append_unit).trans node?_assign_self

/-- **A definition that has the name of a query is taken for it**: it has the query's files, and its
listing is not one that the query is planned to. -/
theorem definition_under_query_name :
    let start := new aliased .inProcess furnished
    let p := start.run [.compileSchema (declaring "a")]
    Barren aliased furnished ∧ Ordered start [.compileSchema (declaring "a")] ∧
      p.files.Leads aliased.workDir ["tmp"] ∧
      p.files.node? (["tmp"] ++ [unitName selecting]) ≠ none ∧
      ¬ ∃ text₀ d listing, Returned start [.compileSchema (declaring "a")] d ∧
        Fingerprint.of text₀ = Fingerprint.of selecting ∧ planned text₀ d.schema = .ok listing ∧
        p.files.node? (["tmp"] ++ [listingName selecting]) = some (.file listing.toUTF8) := by
  intro start p
  obtain ⟨d, p', done, leads, unit, stored⟩ := exists_compileSchema_aliased
  have last : p = p' := by
    unfold p
    rw [run_cons, step_compileSchema, done, run_nil]
  rw [last]
  have ordered : Ordered start ([] ++ [.compileSchema (declaring "a")]) :=
    ordered_snoc.mpr ⟨ordered_nil, trivial⟩
  refine ⟨barren_furnished, ordered, leads, unit, ?_⟩
  rintro ⟨text₀, d, listing, ⟨earlier, text, later, -, compiled⟩, -, hplanned, same⟩
  obtain ⟨parsed, -⟩ := exists_of_compileSchema (Prod.ext compiled rfl)
  have listing_eq : listing = (Listing.ofSchema (declared "a")).text :=
    String.toByteArray_inj.mp (Node.file.inj (Option.some.inj (same.symm.trans stored)))
  rw [listing_eq] at hplanned
  exact planned_ne_definition (Sql.admitted_of_parseSchema parsed)
    (parseSchema_declaring (Or.inl rfl)) hplanned

end Pipeline

end TemporalDB
