import Mathlib.Logic.Function.Basic
import TemporalDB.Proofs.FileTree.Frame
import TemporalDB.Proofs.Pipeline.Transparency
import TemporalDB.Proofs.WorkDirectory.Fate

/-!
# Texts that are compiled one after another

A text that is compiled is built once and kept from then on, or fails as often as it is compiled.
What becomes of it depends on no other text, so texts can be compiled in any order.
-/

namespace TemporalDB

open FileTree

variable {config : Configuration} {texts texts' : List String} {w : List String}
  {files made : FileTree} {text other : String} {fates : String → Fate}
  {state : FileTree × FileTree}

/-! ## Fates -/

/-- How the compilation of a text came out: the status of the unit that was handed out, if one was,
and how often the toolchain ran. -/
structure Compilation where
  text : String
  status : Option BuildStatus
  runs : Nat

/-- The files, and what they are once there is a work directory, after a text was compiled. -/
def Fate.change (w : List String) (text : String) (state : FileTree × FileTree) (f : Fate) :
    FileTree × FileTree :=
  (if f.isActive then f.store w text state.2 else state.1, f.store w text state.2)

/-- What becomes of the texts after one of them was compiled. -/
def advance (fates : String → Fate) (text : String) : String → Fate :=
  Function.update fates text (fates text).next

/-- What comes of texts that are compiled one after another. -/
def foretold : (String → Fate) → List String → List Compilation
  | _, [] => []
  | fates, text :: texts =>
    ⟨text, (fates text).status, (fates text).runs⟩ :: foretold (advance fates text) texts

/-- The files after texts were compiled one after another. -/
def changed (w : List String) :
    (String → Fate) → FileTree × FileTree → List String → FileTree × FileTree
  | _, state, [] => state
  | fates, state, text :: texts =>
    changed w (advance fates text) ((fates text).change w text state) texts

/-- Different texts have different fingerprints. -/
def Apart (texts : List String) : Prop :=
  ∀ text ∈ texts, ∀ other ∈ texts, Fingerprint.of text = Fingerprint.of other → text = other

theorem advance_self : advance fates text text = (fates text).next := Function.update_self _ _ _

theorem advance_of_ne (ne : other ≠ text) : advance fates text other = fates other :=
  Function.update_of_ne ne _ _

theorem advance_kept (kept : fates other = .kept) : advance fates text other = .kept := by
  by_cases same : other = text
  · subst same
    rw [advance_self, kept]
    rfl
  · rw [advance_of_ne same, kept]

/-- A text that fares the same once more changes nothing for the others. -/
theorem advance_of_next (same : (fates text).next = fates text) : advance fates text = fates := by
  unfold advance
  rw [same]
  exact Function.update_eq_self text fates

namespace Pipeline

variable {p : Pipeline} {d : Definition} {steps steps' : List Step} {schema : Schema}

/-! ## Pipelines that compile texts -/

/-- A pipeline with a work directory, as it is once it was made. -/
structure Sited (config : Configuration) (texts : List String) (w : List String) (p : Pipeline)
    (made : FileTree) : Prop where
  configured : p.config = config
  compiler : p.cache.compiler = .inProcess
  makes : p.files.createDirectories config.workDir = .ok made
  site : Site config texts w made
  lookup : ∀ text ∈ texts, p.cache.lookup (Fingerprint.of text).artifactName = none ↔
    made.node? (w ++ [unitName text]) = none

namespace Sited

theorem restart (sited : Sited config texts w p made) : Sited config texts w p.restart made :=
  ⟨sited.configured, sited.compiler, sited.makes, sited.site, sited.lookup⟩

theorem of_site {cache : BuildCache} {loader : Loader} (configured : cache.config = config)
    (compiler : cache.compiler = .inProcess) (site : Site config texts w cache.files) :
    Sited config texts w ⟨cache, loader⟩ cache.files := by
  refine ⟨configured, compiler, site.createDirectories, site, fun text _ => ?_⟩
  apply BuildCache.lookup_eq_none_iff
  rw [configured]
  exact site.room.place_unit site.leads

end Sited

/-! ## Runs that compile texts -/

def compiledTexts (steps : List Step) : List String :=
  steps.filterMap fun
    | .compileQuery text _ => some text
    | _ => none

theorem compiledTexts_compileQuery : compiledTexts (.compileQuery text d :: steps) =
    text :: compiledTexts steps := rfl

/-- In a run nothing is done but compiling some texts for one definition and beginning anew. -/
def Compiles (d : Definition) (texts : List String) (steps : List Step) : Prop :=
  ∀ s ∈ steps, s = .restart ∨ ∃ text ∈ texts, s = .compileQuery text d

theorem Compiles.perm (compiles : Compiles d (compiledTexts steps') steps')
    (same : (compiledTexts steps').Perm (compiledTexts steps)) :
    Compiles d (compiledTexts steps) steps' := fun s hs =>
  (compiles s hs).imp_right fun ⟨text, mem, h⟩ => ⟨text, same.mem_iff.mp mem, h⟩

/-! ## Where there can be no work directory -/

/-- The work directory is not there and cannot be made. -/
def Siteless (p : Pipeline) : Prop :=
  ∀ made w, p.files.createDirectories p.config.workDir = .ok made → ¬ made.Leads p.config.workDir w

/-- What becomes of a text then. -/
def idle (schema : Schema) (text : String) : Fate :=
  match planned text schema with
  | .ok _ => .unstored
  | .error _ => .unplanned

theorem idle_of_planned {listing : String} (h : planned text schema = .ok listing) :
    idle schema text = .unstored := by
  unfold idle
  rw [h]

theorem idle_of_unplanned {e : QueryError} (h : planned text schema = .error e) :
    idle schema text = .unplanned := by
  unfold idle
  rw [h]

theorem idle_is_idle (schema : Schema) (text : String) : (idle schema text).status = none ∧
    (idle schema text).runs = 0 ∧ (idle schema text).next = idle schema text := by
  unfold idle
  split
  · exact ⟨rfl, rfl, rfl⟩
  · exact ⟨rfl, rfl, rfl⟩

namespace Siteless

/-- Paving leaves no work directory either, and all that it ever does is done. -/
theorem paved {p' : Pipeline} (siteless : p.Siteless) (config : p'.config = p.config)
    (paves : p'.files = (p.files.pave p.config.workDir).2) :
    p'.Siteless ∧ (p'.files.pave p'.config.workDir).2 = p'.files := by
  unfold Siteless
  rcases pave_cases p.files p.config.workDir with ⟨made, makes, done⟩ | ⟨e, left, -, failed⟩
  · rw [done] at paves
    rcases (createDirectories_eq_ok makes).2 with ⟨-, same⟩ | ⟨-, w, leads⟩
    · rw [config, paves, same]
      rw [same] at done
      exact ⟨siteless, congrArg Prod.snd done⟩
    · exact absurd leads (siteless made w makes)
  · rw [failed] at paves
    obtain ⟨-, e', again⟩ := pave_of_error failed
    rw [config, paves]
    dsimp only
    refine ⟨fun made w makes => ?_, congrArg Prod.snd again⟩
    cases again.symm.trans (createDirectories_eq_ok_iff.mp makes)

end Siteless

/-! ## Files in which texts can be compiled -/

/-- Files in which texts can be compiled: whether the work directory is there or is still to be
made, the paths of their listings and units are those of files, or there is nothing; and no unit
comes to light when the directory is made. -/
structure Regular (config : Configuration) (texts : List String) (files : FileTree) : Prop where
  room : config.HasRoom
  listing : ∀ made, files.createDirectories config.workDir = .ok made → ∀ text ∈ texts,
    made.look (config.sourcePath (Fingerprint.of text).artifactName) ≠ some .directory
  unit : ∀ made, files.createDirectories config.workDir = .ok made → ∀ text ∈ texts,
    made.look (config.artifactPath (Fingerprint.of text).artifactName) ≠ some .directory
  unveiled : ∀ made, files.createDirectories config.workDir = .ok made → ∀ text ∈ texts,
    files.look (config.artifactPath (Fingerprint.of text).artifactName) = none →
      made.look (config.artifactPath (Fingerprint.of text).artifactName) = none

theorem Regular.sited (regular : Regular p.config texts p.files)
    (inProcess : p.cache.compiler = .inProcess)
    (makes : p.files.createDirectories p.config.workDir = .ok made)
    (leads : made.Leads p.config.workDir w) : Sited p.config texts w p made := by
  have grows := (createDirectories_eq_ok makes).1
  have listing : ∀ text, made.look (p.config.sourcePath (Fingerprint.of text).artifactName) =
      made.node? (w ++ [listingName text]) := fun _ =>
    look_eq_of_place (regular.room.place_listing leads)
  have unit : ∀ text, made.look (p.config.artifactPath (Fingerprint.of text).artifactName) =
      made.node? (w ++ [unitName text]) := fun _ => look_eq_of_place (regular.room.place_unit leads)
  have site : Site p.config texts w made :=
    ⟨regular.room, leads,
      fun text mem => listing text ▸ regular.listing made makes text mem,
      fun text mem => unit text ▸ regular.unit made makes text mem⟩
  refine ⟨rfl, inProcess, makes, site, fun text mem => ?_⟩
  rw [BuildCache.lookup_eq_none_iff_look, ← unit text]
  refine ⟨regular.unveiled made makes text mem, fun absent => ?_⟩
  have same := grows.sameAt (regular.unit made makes text mem)
  by_contra there
  obtain ⟨node, found⟩ := Option.ne_none_iff_exists'.mp there
  obtain ⟨place, hplace, hnode⟩ := look_eq_some_iff.mp found
  have hplace' := same.place place hplace
  have found' := look_eq_some_iff.mpr ⟨place, hplace', (same.node place hplace').trans hnode⟩
  cases absent.symm.trans found'

theorem Regular.cases (regular : Regular p.config texts p.files)
    (inProcess : p.cache.compiler = .inProcess) :
    (∃ w made, Sited p.config texts w p made) ∨ p.Siteless := by
  by_cases there : ∃ made w, p.files.createDirectories p.config.workDir = .ok made ∧
      made.Leads p.config.workDir w
  · obtain ⟨made, w, makes, leads⟩ := there
    exact Or.inl ⟨w, made, regular.sited inProcess makes leads⟩
  · exact Or.inr fun made w makes leads => there ⟨made, w, makes, leads⟩

section

variable [Tags]

/-! ## Compiling texts -/

/-- **A text is compiled as its fate says.** -/
theorem Sited.compileQuery (sited : Sited config texts w p made) (mem : text ∈ texts) (d : Definition) :
    (p.compileQuery text d).1.toOption.map (·.status) =
        (fate config d.schema w made text).status ∧
      (p.compileQuery text d).2.cache.builds =
        p.cache.builds + (fate config d.schema w made text).runs ∧
      ((p.compileQuery text d).2.files, (fate config d.schema w made text).store w text made) =
        (fate config d.schema w made text).change w text (p.files, made) ∧
      Sited config texts w (p.compileQuery text d).2
        ((fate config d.schema w made text).store w text made) := by
  obtain ⟨configured, compiler, makes, site, lookup⟩ := id sited
  cases found : p.cache.lookup (Fingerprint.of text).artifactName with
  | some artifact =>
      have there : made.node? (w ++ [unitName text]) ≠ none := by
        rw [Ne, ← lookup text mem, found]
        exact Option.some_ne_none _
      rw [compileQuery_of_lookup found, fate_eq_kept_iff.mpr there]
      exact ⟨rfl, rfl, rfl, sited⟩
  | none =>
      have absent := (lookup text mem).mp found
      cases hplanned : planned text d.schema with
      | error e =>
          rw [compileQuery_of_error found hplanned, fate_of_unplanned absent hplanned]
          exact ⟨rfl, rfl, rfl, sited⟩
      | ok listing =>
          have active : (fate config d.schema w made text).isActive = true :=
            isActive_fate absent hplanned
          subst configured
          obtain ⟨result, done, status⟩ :=
            compileStored_eq_fate compiler makes site mem absent hplanned
          have after := (site.store mem (fate p.config d.schema w made text)).1
          rw [compileQuery_of_ok found hplanned, done]
          unfold Fate.change
          rw [if_pos active]
          cases result with
          | error e => exact ⟨status, rfl, rfl, of_site rfl compiler after⟩
          | ok _ => exact ⟨status, rfl, rfl, of_site rfl compiler after⟩

/-- What comes of the texts that are compiled in a run. -/
def compilations (p : Pipeline) : List Step → List Compilation
  | [] => []
  | .compileQuery text d :: steps =>
    ⟨text, (p.compileQuery text d).1.toOption.map (·.status),
      (p.compileQuery text d).2.cache.builds - p.cache.builds⟩ ::
        compilations (p.compileQuery text d).2 steps
  | s :: steps => compilations (p.step s) steps

/-- **A run goes as the fates of its texts say.** A text that is kept stays so. -/
theorem Sited.run (sited : Sited config texts w p made) (apart : Apart texts)
    (compiles : Compiles d texts steps)
    (fated : ∀ text ∈ texts, fates text = fate config d.schema w made text) :
    p.compilations steps = foretold fates (compiledTexts steps) ∧
      ∃ made', ((p.run steps).files, made') =
          changed w fates (p.files, made) (compiledTexts steps) ∧
        Sited config texts w (p.run steps) made' ∧
        ∀ text ∈ texts, fates text = .kept → fate config d.schema w made' text = .kept := by
  induction steps generalizing p made fates with
  | nil => exact ⟨rfl, made, rfl, sited, fun text mem kept => (fated text mem).symm.trans kept⟩
  | cons s steps ih =>
      obtain ⟨this, others⟩ := List.forall_mem_cons.mp compiles
      rcases this with rfl | ⟨text, mem, rfl⟩
      · exact ih sited.restart others fated
      · obtain ⟨status, builds, files, sited'⟩ := sited.compileQuery mem d
        rw [← fated text mem] at status builds files sited'
        -- one step settles the fate of its own query and leaves those of the others
        have fated' : ∀ other ∈ texts, advance fates text other =
            fate config d.schema w ((fates text).store w text made) other := by
          intro other hother
          by_cases same : other = text
          · rw [same, advance_self, fated text mem, sited.site.fate_store_self mem]
          · have ne : unitName other ≠ unitName text := fun h =>
              same (apart other hother text mem (of_eq_of_unitName_eq h))
            rw [advance_of_ne same, fated other hother, sited.site.fate_store_of_ne mem ne]
        obtain ⟨outcomes, made', left, sited'', kept⟩ := ih sited' others fated'
        rw [run_cons, step_compileQuery, compiledTexts_compileQuery]
        unfold foretold changed
        refine ⟨?_, made', ?_, sited'', fun other hother h => kept other hother (advance_kept h)⟩
        · unfold Pipeline.compilations
          rw [status, builds, Nat.add_sub_cancel_left, outcomes]
        · rw [left, files]

/-- A text is not compiled, and at most the directories are paved for it. -/
theorem Siteless.compileQuery (siteless : p.Siteless) (room : p.config.HasRoom)
    (text : String) (d : Definition) : ∃ e files,
      p.compileQuery text d = (.error e, { p with cache := { p.cache with files } }) ∧
      (files, (p.files.pave p.config.workDir).2) =
        (idle d.schema text).change [] text (p.files, (p.files.pave p.config.workDir).2) := by
  have absent : p.cache.lookup (Fingerprint.of text).artifactName = none := by
    by_contra there
    obtain ⟨-, w, leads⟩ := exists_of_lookup (c := p.cache) rfl there
    exact siteless _ w (createDirectories_of_hasRoom room leads) leads
  cases hplanned : planned text d.schema with
  | error e =>
      rw [idle_of_unplanned hplanned]
      exact ⟨e, p.files, compileQuery_of_error absent hplanned, rfl⟩
  | ok listing =>
      obtain ⟨e, failed⟩ := compileStored_of_siteless (c := p.cache) listing text siteless
      rw [idle_of_planned hplanned, compileQuery_of_ok absent hplanned, failed]
      exact ⟨.compile e, _, rfl, rfl⟩

/-- **Nothing is compiled**, and at most the directories are paved. -/
theorem Siteless.run (siteless : p.Siteless) (room : p.config.HasRoom)
    (compiles : Compiles d texts steps) :
    p.compilations steps = foretold (idle d.schema) (compiledTexts steps) ∧
      (p.run steps).files = (changed [] (idle d.schema)
        (p.files, (p.files.pave p.config.workDir).2) (compiledTexts steps)).1 ∧
      (p.run steps).config = p.config ∧ (p.run steps).Siteless := by
  induction steps generalizing p with
  | nil => exact ⟨rfl, rfl, rfl, siteless⟩
  | cons s steps ih =>
      obtain ⟨this, others⟩ := List.forall_mem_cons.mp compiles
      rcases this with rfl | ⟨text, -, rfl⟩
      · exact ih (p := p.restart) siteless room others
      · obtain ⟨e, files, failed, change⟩ := siteless.compileQuery room text d
        obtain ⟨status, runs, next⟩ := idle_is_idle d.schema text
        -- the directories have been paved already, or are as before
        have after : ({ p with cache := { p.cache with files } } : Pipeline).Siteless ∧
            (files.pave p.config.workDir).2 = (p.files.pave p.config.workDir).2 := by
          cases hplanned : planned text d.schema with
          | error e =>
              rw [idle_of_unplanned hplanned] at change
              cases (Prod.mk.inj change).1
              exact ⟨siteless, rfl⟩
          | ok listing =>
              rw [idle_of_planned hplanned] at change
              have paves : files = (p.files.pave p.config.workDir).2 := (Prod.mk.inj change).1
              let p' : Pipeline := { p with cache := { p.cache with files } }
              obtain ⟨siteless', same⟩ : p'.Siteless ∧ (files.pave p'.config.workDir).2 = files :=
                siteless.paved rfl paves
              exact ⟨siteless', same.trans paves⟩
        obtain ⟨siteless', same⟩ := after
        obtain ⟨outcomes, left, rest⟩ := ih siteless' room others
        rw [run_cons, step_compileQuery, compiledTexts_compileQuery]
        unfold foretold changed Pipeline.compilations
        rw [failed, Nat.sub_self, advance_of_next next, status, runs, outcomes, ← change, ← same]
        exact ⟨rfl, left, rest⟩

/-! ## Compiling once and in any order -/

end

end Pipeline

end TemporalDB
