import TemporalDB.Proofs.Loader
import TemporalDB.Proofs.WorkDirectory

/-!
# Builds in a work directory

A build of the definition or of a query leaves the work directory as pipelines leave it, and leaves
the units of all other names alone, whatever comes of it.
-/

namespace TemporalDB

open FileTree

variable {config : Configuration} {compiled : String → Schema → Prop} {text name file : String}
  {files files' : FileTree} {w place : List String} {c : BuildCache}

/-- A listing that may be stored under a name: if it is that of a query, there is no unit yet and
the text was compiled. -/
def Storable (compiled : String → Schema → Prop) (c : BuildCache) (name : String)
    (source : Option String) : Prop :=
  ∀ listing ∈ source, ∀ text, (Fingerprint.of text).artifactName = name → c.lookup name = none ∧
    ∃ text₀ schema, compiled text₀ schema ∧ Fingerprint.of text₀ = Fingerprint.of text ∧
      planned text₀ schema = .ok listing

theorem storable_of_planned {schema : Schema} {listing : String} (h : compiled text schema)
    (absent : c.lookup (Fingerprint.of text).artifactName = none)
    (hplanned : planned text schema = .ok listing) :
    Storable compiled c (Fingerprint.of text).artifactName (some listing) := by
  intro listing' hlisting text' same
  cases hlisting
  refine ⟨absent, text, schema, h, ?_, hplanned⟩
  exact (Fingerprint.artifactName_injective same).symm

/-- A path is read alike if it has the same place and there is the same. -/
theorem read_congr {p : Path} (hplace : files.place p = .ok place)
    (hplace' : files'.place p = .ok place) (h : files'.node? place = files.node? place) :
    files'.read p = files.read p := by
  unfold FileTree.read
  rw [hplace, hplace', ok_bind, ok_bind, h]

/-- The work directory, which is made before each build, is left as it is. -/
theorem createDirectories_of_hasRoom (room : config.HasRoom)
    (leads : files.Leads config.workDir w) :
    files.createDirectories config.workDir = .ok files :=
  createDirectories_of_leads leads ((room "").of_join (isFileName_unitName ""))

/-- The work directory has not been made: it was not asked for, or some of the directories that lead
to it were made and one could not be. -/
def Unmade (config : Configuration) (before files : FileTree) : Prop :=
  files = before ∨ ∃ e, before.pave config.workDir = (.error e, files)

/-- If there is a work directory all the same, nothing was done. -/
theorem Unmade.eq_of_leads {before : FileTree} (unmade : Unmade config before files)
    (leads : files.Leads config.workDir w) : files = before := by
  rcases unmade with same | ⟨e, failed⟩
  · exact same
  · exact eq_of_pave_error failed leads

/-- The work directory has not been made, and there is none. -/
def Unpaved (config : Configuration) (before files : FileTree) : Prop :=
  Unmade config before files ∧ ∀ w, ¬ files.Leads config.workDir w

/-- Directories that could not all be made do not lead to the work directory. -/
theorem Unpaved.of_error {before : FileTree} {e : IoError} (room : config.HasRoom)
    (failed : before.pave config.workDir = (.error e, files)) : Unpaved config before files := by
  refine ⟨Or.inr ⟨e, failed⟩, fun w leads => (pave_of_error failed).1 w ⟨?_, leads⟩⟩
  refine (room "").of_join (isFileName_unitName "") fun empty => ?_
  unfold pave at failed
  rw [if_pos (String.isEmpty_iff.mpr empty)] at failed
  cases failed

/-! ## Units that are looked up or read -/

theorem exists_of_lookup (hconfig : c.config = config)
    (h : c.lookup (Fingerprint.of text).artifactName ≠ none) :
    config.HasRoom ∧ ∃ w, c.files.Leads config.workDir w := by
  cases hplace : c.files.place (c.config.artifactPath (Fingerprint.of text).artifactName) with
  | error e =>
      refine absurd ?_ h
      unfold BuildCache.lookup FileTree.exists FileTree.look
      dsimp only
      rw [hplace]
      rfl
  | ok place =>
      rw [hconfig] at hplace
      obtain ⟨room, w, leads, -⟩ := exists_of_place_unit hplace
      exact ⟨room, w, leads⟩

theorem exists_of_readUnit {p : Path} {u : CompiledUnit} (h : Loader.readUnit files p = .ok u) :
    ∃ place bytes, files.place p = .ok place ∧ files.node? place = some (.file bytes) := by
  obtain ⟨bytes, hread, -⟩ := Loader.readUnit_eq_ok_iff.mp h
  obtain ⟨place, hplace, hnode⟩ := read_eq_ok_iff.mp hread
  exact ⟨place, bytes, hplace, hnode⟩

/-- A unit of a query that is read lies in the work directory. -/
theorem leads_of_readUnit {u : CompiledUnit}
    (h : Loader.readUnit files (config.artifactPath (Fingerprint.of text).artifactName) = .ok u) :
    config.HasRoom ∧ ∃ w, files.Leads config.workDir w := by
  obtain ⟨place, bytes, hplace, -⟩ := exists_of_readUnit h
  obtain ⟨room, w, leads, -⟩ := exists_of_place_unit hplace
  exact ⟨room, w, leads⟩

/-- Where the unit of a query stays, it is read as before. -/
theorem Configuration.HasRoom.readUnit_congr (room : config.HasRoom)
    (leads : files.Leads config.workDir w) (leads' : files'.Leads config.workDir w)
    (same : files'.node? (w ++ [unitName text]) = files.node? (w ++ [unitName text])) :
    Loader.readUnit files' (config.artifactPath (Fingerprint.of text).artifactName) =
      Loader.readUnit files (config.artifactPath (Fingerprint.of text).artifactName) := by
  unfold Loader.readUnit
  rw [read_congr (room.place_unit leads) (room.place_unit leads') same]

variable [Tags]

namespace Holds

theorem free_source (holds : Holds config compiled w files) (h : IsBuilt config name) :
    files.node? (w ++ [name ++ ".src"]) ≠ some .directory := by
  rcases h with rfl | ⟨text, rfl⟩
  · exact holds.source
  · intro directory
    obtain ⟨_, _, _, _, -, -, -, file, -⟩ := holds.listing text .directory directory
    cases file

theorem free_unit (holds : Holds config compiled w files) (h : IsBuilt config name) :
    files.node? (w ++ [name ++ ".unit"]) ≠ some .directory := by
  rcases h with rfl | ⟨text, rfl⟩
  · exact holds.artifact
  · intro directory
    obtain ⟨_, _, _, -, -, file, -⟩ := holds.unit text .directory directory
    cases file

theorem lookup_eq_none_iff (hconfig : c.config = config)
    (holds : Holds config compiled w c.files) :
    c.lookup (Fingerprint.of text).artifactName = none ↔
      c.files.node? (w ++ [unitName text]) = none := by
  apply BuildCache.lookup_eq_none_iff
  rw [hconfig]
  exact holds.room.place_unit holds.leads

/-- **Compiling leaves such a directory** and changes no file but the unit of its name. -/
theorem compile (hconfig : c.config = config)
    (inProcess : c.compiler = .inProcess) (plain : '/' ∉ name.toList)
    (holds : Holds config compiled w c.files) :
    Holds config compiled w (c.compile name).2.files ∧
      ∀ other, other ≠ name ++ ".unit" →
        (c.compile name).2.files.node? (w ++ [other]) = c.files.node? (w ++ [other]) := by
  have named : IsFileName (name ++ ".unit") := isFileName_append plain (by decide) (by decide)
  -- a unit has only one place in the work directory
  have here : ∀ target, c.files.place (c.config.artifactPath name) = .ok target →
      target = w ++ [name ++ ".unit"] := by
    intro target htarget
    obtain ⟨-, -, w', leads, rfl⟩ := (place_join_eq_ok_iff named).mp htarget
    rw [hconfig] at leads
    rw [holds.leads.unique leads]
  have elsewhere : ∀ content other, other ≠ name ++ ".unit" →
      (c.files.assign (w ++ [name ++ ".unit"]) content).node? (w ++ [other]) =
        c.files.node? (w ++ [other]) := fun _ _ ne => node?_assign_of_name_ne ne
  rcases BuildCache.compile_cases_of_inProcess inProcess name with
    ⟨target, bytes, compiles, done⟩ | ⟨e, failed⟩
  · rw [done]
    have target_eq := here target compiles.place
    subst target_eq
    refine ⟨?_, elsewhere _⟩
    refine holds.assign getLast?_append_unit compiles.free ?_ ?_
    · intro text same
      exact absurd same append_src_ne_append_unit
    · intro text same bytes' hbytes'
      cases hbytes'
      have query : (Fingerprint.of text).artifactName = name := append_inj same
      subst query
      obtain ⟨listing, u, stored, assembled, hu⟩ := compiles.assembles
      obtain ⟨place, hplace⟩ := compiles.writable
      obtain ⟨source, hsource, hnode⟩ := readText_eq_ok_iff.mp stored
      rw [hconfig, holds.room.place_listing holds.leads] at hsource
      rw [hconfig] at hplace
      cases hsource
      exact ⟨listing, u, place, hnode, assembled, hu, hplace⟩
  · rw [failed]
    dsimp only
    rcases discard_cases c.files (c.config.artifactPath name) with
      same | ⟨target, bytes, htarget, hnode, gone⟩
    · rw [same]
      exact ⟨holds, fun _ _ => rfl⟩
    · rw [gone, here target htarget]
      rw [here target htarget] at hnode
      refine ⟨?_, elsewhere _⟩
      refine holds.assign getLast?_append_unit (by rw [hnode]; simp) ?_ ?_
      · intro text same
        exact absurd same append_src_ne_append_unit
      · intro text same bytes' hbytes'
        cases hbytes'

theorem remove_unit (holds : Holds config compiled w files) (text : String) :
    Holds config compiled w (files.discard (config.artifactPath (Fingerprint.of text).artifactName)) ∧
      ∀ other, other ≠ unitName text →
        (files.discard (config.artifactPath (Fingerprint.of text).artifactName)).node?
          (w ++ [other]) = files.node? (w ++ [other]) := by
  rcases discard_cases files (config.artifactPath (Fingerprint.of text).artifactName) with
    same | ⟨place, bytes, hplace, hnode, gone⟩
  · rw [same]
    exact ⟨holds, fun _ _ => rfl⟩
  · obtain ⟨-, -, w', leads, rfl⟩ :=
      (place_join_eq_ok_iff (isFileName_unitName text)).mp hplace
    rw [← holds.leads.unique leads] at hnode gone
    rw [gone]
    constructor
    · refine holds.assign getLast?_append_unit (by rw [hnode]; simp) ?_ ?_
      · intro text same
        exact absurd same append_src_ne_append_unit
      · intro text same bytes' hbytes'
        cases hbytes'
    · intro other ne
      exact node?_assign_of_name_ne ne

/-- **Storing a listing leaves such a directory** and changes no file but the listing. -/
theorem publish (sound : config.Sound) (built : IsBuilt config name) (hconfig : c.config = config)
    (holds : Holds config compiled w c.files) {listing : String}
    (storable : Storable compiled c name (some listing)) :
    Holds config compiled w
      (BuildCache.publish c.files (config.sourcePath name) listing.toUTF8).2 ∧
      ∀ other, other ≠ name ++ ".src" →
        (BuildCache.publish c.files (config.sourcePath name) listing.toUTF8).2.node?
          (w ++ [other]) = c.files.node? (w ++ [other]) := by
  have plain := sound.plain_of_isBuilt built
  have named : IsFileName (name ++ ".src") := isFileName_append plain (by decide) (by decide)
  have free := holds.free_source built
  -- a temporary file is written where the listing goes, so it can be renamed to it
  have movable : ∀ place, c.files.place
      (c.files.temporary (.ofParts config.workDir.parts) (name ++ ".src")) = .ok place →
      ∃ target, c.files.place (config.workDir.join (name ++ ".src")) = .ok target ∧
        c.files.node? target ≠ some .directory := by
    intro place hplace
    obtain ⟨w', leads, htarget⟩ := sound.place_source holds.room built hplace
    rw [← holds.leads.unique leads] at htarget
    exact ⟨_, htarget, free⟩
  have path : config.sourcePath name = config.workDir.join (name ++ ".src") := rfl
  rw [path]
  rcases BuildCache.publish_cases listing.toUTF8 named movable with
    ⟨place, target, hplace, htarget, -, done⟩ | ⟨e, failed⟩
  · obtain ⟨w', leads, htarget'⟩ := sound.place_source holds.room built hplace
    rw [← holds.leads.unique leads] at htarget'
    rw [path] at htarget'
    rw [htarget] at htarget'
    cases htarget'
    rw [done]
    constructor
    · refine holds.assign getLast?_append_src free ?_ ?_
      · intro text same
        have query : (Fingerprint.of text).artifactName = name := append_inj same
        obtain ⟨absent, text₀, schema, hcompiled, hof, hplanned⟩ := storable listing rfl text query
        rw [← query] at absent
        subst query
        exact ⟨(holds.lookup_eq_none_iff hconfig).mp absent, text₀, schema, listing, place,
          hcompiled, hof, hplanned, rfl, hplace⟩
      · intro text same
        exact absurd same.symm append_src_ne_append_unit
    · intro other ne
      exact node?_assign_of_name_ne ne
  · rw [failed]
    exact ⟨holds, fun _ _ => rfl⟩

end Holds

/-! ## Builds -/

theorem Holds.createDirectories (holds : Holds config compiled w files) :
    files.createDirectories config.workDir = .ok files :=
  createDirectories_of_hasRoom holds.room holds.leads

/-- What is known of the files of pipelines: there is no room for units of queries, or the work
directory is there, or there is none. -/
def Settled (config : Configuration) (compiled : String → Schema → Prop) (before files : FileTree) :
    Prop :=
  ¬ config.HasRoom ∨ (∃ w, Holds config compiled w files) ∨ Unpaved config before files

/-- Files in which nothing has been built: once the work directory is there, it holds nothing of a
query, and no directory has the name of a file of the definition. -/
structure Vacant (config : Configuration) (before : FileTree) : Prop where
  listing : ∀ files w, before.createDirectories config.workDir = .ok files →
    files.Leads config.workDir w → ∀ text, files.node? (w ++ [listingName text]) = none
  unit : ∀ files w, before.createDirectories config.workDir = .ok files →
    files.Leads config.workDir w → ∀ text, files.node? (w ++ [unitName text]) = none
  definition : ∀ files w, before.createDirectories config.workDir = .ok files →
    files.Leads config.workDir w → ∀ ending ∈ [".src", ".unit"],
      files.node? (w ++ [config.definitionName ++ ending]) ≠ some .directory

namespace Vacant

variable {before : FileTree}

theorem holds (vacant : Vacant config before) (room : config.HasRoom)
    (made : before.createDirectories config.workDir = .ok files)
    (leads : files.Leads config.workDir w) : Holds config compiled w files := by
  refine ⟨room, leads, vacant.definition files w made leads _ (by simp),
    vacant.definition files w made leads _ (by simp), ?_, ?_⟩
  · intro text node found
    rw [vacant.listing files w made leads] at found
    cases found
  · intro text node found
    rw [vacant.unit files w made leads] at found
    cases found

theorem settled (vacant : Vacant config before) : Settled config compiled before before := by
  by_cases room : config.HasRoom
  · by_cases there : ∃ w, before.Leads config.workDir w
    · obtain ⟨w, leads⟩ := there
      exact Or.inr (Or.inl
        ⟨w, vacant.holds room (createDirectories_of_hasRoom room leads) leads⟩)
    · exact Or.inr (Or.inr ⟨Or.inl rfl, fun w leads => there ⟨w, leads⟩⟩)
  · exact Or.inl room

end Vacant

/-! ## Builds where there is no work directory -/

theorem compile_of_absent (sound : config.Sound) (built : IsBuilt config name)
    (hconfig : c.config = config) (inProcess : c.compiler = .inProcess)
    (absent : ∀ w, ¬ c.files.Leads config.workDir w) : (c.compile name).2.files = c.files := by
  have plain := sound.plain_of_isBuilt built
  have named : IsFileName (name ++ ".unit") := isFileName_append plain (by decide) (by decide)
  rw [← hconfig] at absent
  rcases BuildCache.compile_cases_of_inProcess inProcess name with
    ⟨target, bytes, compiles, -⟩ | ⟨e, failed⟩
  · obtain ⟨-, -, w, leads, -⟩ := (place_join_eq_ok_iff named).mp compiles.place
    exact absurd leads (absent w)
  · rw [failed]
    rcases discard_cases c.files (c.config.artifactPath name) with same | ⟨_, _, htarget, -⟩
    · exact same
    · obtain ⟨-, -, w, leads, -⟩ := (place_join_eq_ok_iff named).mp htarget
      exact absurd leads (absent w)

theorem publish_of_absent (listing : String) (plain : '/' ∉ name.toList)
    (absent : ∀ w, ¬ files.Leads config.workDir w) :
    ∃ e, BuildCache.publish files (config.sourcePath name) listing.toUTF8 = (.error e, files) := by
  have named : IsFileName (name ++ ".src") := isFileName_append plain (by decide) (by decide)
  have unmade : ∀ place, files.place
      (files.temporary (.ofParts config.workDir.parts) (name ++ ".src")) ≠ .ok place := by
    intro place hplace
    obtain ⟨-, -, w, leads, -⟩ :=
      (place_join_eq_ok_iff (isFileName_temporaryName named.plain)).mp hplace
    exact absent w (leads_ofParts.mp leads)
  rcases BuildCache.publish_cases (p := config.workDir) listing.toUTF8 named
    (fun place hplace => absurd hplace (unmade place)) with ⟨place, _, hplace, -⟩ | failed
  · exact absurd hplace (unmade place)
  · exact failed

theorem BuildCache.compile_config : (c.compile name).2.config = c.config ∧
    (c.compile name).2.compiler = c.compiler := by
  unfold BuildCache.compile
  dsimp only
  split
  · exact ⟨rfl, rfl⟩
  · split
    · exact ⟨rfl, rfl⟩
    · exact ⟨rfl, rfl⟩

theorem BuildCache.compileStored_config (c : BuildCache) (source : Option String) (name : String) :
    (c.compileStored source name).2.config = c.config ∧
      (c.compileStored source name).2.compiler = c.compiler := by
  unfold BuildCache.compileStored
  split
  · exact ⟨rfl, rfl⟩
  · split
    · exact BuildCache.compile_config
    · split
      · exact ⟨rfl, rfl⟩
      · exact BuildCache.compile_config

/-! ## Builds -/

/-- The units of queries of other names are read as before. -/
def Leaves (config : Configuration) (name : String) (files files' : FileTree) : Prop :=
  ∀ text u, (Fingerprint.of text).artifactName ≠ name →
    Loader.readUnit files (config.artifactPath (Fingerprint.of text).artifactName) = .ok u →
    Loader.readUnit files' (config.artifactPath (Fingerprint.of text).artifactName) = .ok u

namespace Holds

theorem leaves (holds : Holds config compiled w files)
    (holds' : Holds config compiled w files')
    (elsewhere : ∀ other, other ≠ name ++ ".src" → other ≠ name ++ ".unit" →
      files'.node? (w ++ [other]) = files.node? (w ++ [other])) :
    Leaves config name files files' := by
  intro text u ne read
  rw [holds.room.readUnit_congr holds.leads holds'.leads]
  · exact read
  · apply elsewhere
    · exact append_src_ne_append_unit.symm
    · exact fun same => ne (append_inj same)

/-- **A build leaves such a directory** and the units of all other names. -/
theorem compileStored (sound : config.Sound) (built : IsBuilt config name)
    (hconfig : c.config = config) (inProcess : c.compiler = .inProcess) {source : Option String}
    (holds : Holds config compiled w c.files) (storable : Storable compiled c name source) :
    Holds config compiled w (c.compileStored source name).2.files ∧
      Leaves config name c.files (c.compileStored source name).2.files := by
  have plain := sound.plain_of_isBuilt built
  have made : c.files.createDirectories c.config.workDir = .ok c.files := by
    rw [hconfig]
    exact holds.createDirectories
  unfold BuildCache.compileStored
  rw [createDirectories_eq_ok_iff.mp made]
  dsimp only
  cases source with
  | none =>
      obtain ⟨after, elsewhere⟩ := holds.compile hconfig inProcess plain
      exact ⟨after, holds.leaves after fun other _ ne => elsewhere other ne⟩
  | some listing =>
      obtain ⟨stored, elsewhere⟩ := holds.publish sound built hconfig storable
      rw [← hconfig] at stored elsewhere
      dsimp only
      cases published : BuildCache.publish c.files (c.config.sourcePath name) listing.toUTF8 with
      | mk result files' =>
          rw [published] at stored elsewhere
          rw [hconfig] at stored
          cases result with
          | error e => exact ⟨stored, holds.leaves stored fun other ne _ => elsewhere other ne⟩
          | ok _ =>
              obtain ⟨after, elsewhere'⟩ :=
                stored.compile (c := { c with files := files' }) hconfig inProcess plain
              refine ⟨after, holds.leaves after fun other ne ne' => ?_⟩
              exact (elsewhere' other ne').trans (elsewhere other ne)

/-- **A listing that assembles is built**, if temporary files can be made for it. -/
theorem compileStored_eq_ok (sound : config.Sound) (built : IsBuilt config name)
    (hconfig : c.config = config) (inProcess : c.compiler = .inProcess)
    (holds : Holds config compiled w c.files) {listing : String} {u : CompiledUnit}
    (assembled : Assembly.assemble listing = .ok u)
    (placeable : Placeable config c.files name) :
    c.compileStored (some listing) name = (.ok .compiled, { c with
      files := (c.files.assign (w ++ [name ++ ".src"]) (some listing.toUTF8)).assign
        (w ++ [name ++ ".unit"]) (some u.artifact.toUTF8)
      builds := c.builds + 1 }) := by
  have plain := sound.plain_of_isBuilt built
  have named : IsFileName (name ++ ".src") := isFileName_append plain (by decide) (by decide)
  have full : w ++ [name ++ ".src"] ≠ [] := List.concat_ne_nil _ _
  have free := holds.free_source built
  obtain ⟨⟨place, hplace⟩, place', hplace'⟩ := placeable
  obtain ⟨w₁, leads₁, placed⟩ := sound.place_source holds.room built hplace
  obtain ⟨w₂, leads₂, placed'⟩ := place_artifact_of_temporary plain hplace'
  rw [← holds.leads.unique leads₁] at placed
  rw [← holds.leads.unique leads₂] at placed'
  have made : c.files.createDirectories c.config.workDir = .ok c.files := by
    rw [hconfig]
    exact holds.createDirectories
  have published : BuildCache.publish c.files (c.config.sourcePath name) listing.toUTF8 =
      (.ok (), c.files.assign (w ++ [name ++ ".src"]) (some listing.toUTF8)) := by
    rw [hconfig]
    exact BuildCache.publish_eq_ok named hplace placed free
  have keeps := keeps_assign (some listing.toUTF8) full free
  -- the listing that was just stored is the one that is assembled
  have compiles : BuildCache.Compiles
      { c with files := c.files.assign (w ++ [name ++ ".src"]) (some listing.toUTF8) } name
      (w ++ [name ++ ".unit"]) u.artifact.toUTF8 := by
    obtain ⟨place'', hplace''⟩ :=
      place_temporary_assign holds.leads.directory free getLast?_append_src hplace'
    refine ⟨⟨listing, u, ?_, assembled, rfl⟩, ⟨place'', ?_⟩, ?_, ?_⟩
    · rw [hconfig]
      exact readText_eq_ok_iff.mpr ⟨_, place_mono keeps placed, node?_assign_self⟩
    · rw [hconfig]
      exact hplace''
    · rw [hconfig]
      exact place_mono keeps placed'
    · rw [node?_assign_of_name_ne append_src_ne_append_unit.symm]
      exact holds.free_unit built
  unfold BuildCache.compileStored
  rw [createDirectories_eq_ok_iff.mp made]
  dsimp only
  rw [published]
  dsimp only
  exact BuildCache.compile_eq_ok
    (c := { c with files := c.files.assign (w ++ [name ++ ".src"]) (some listing.toUTF8) })
    inProcess compiles

/-- **What assembles is built**: its unit is stored, no file of another name changes nor anything
outside the work directory, and temporary files can be made as before. -/
theorem compileStored_builds (sound : config.Sound) (built : IsBuilt config name)
    (hconfig : c.config = config) (inProcess : c.compiler = .inProcess)
    (holds : Holds config compiled w c.files) {listing : String} {u : CompiledUnit}
    (storable : Storable compiled c name (some listing))
    (assembled : Assembly.assemble listing = .ok u) (placeable : Placeable config c.files name) :
    ∃ files', c.compileStored (some listing) name =
        (.ok .compiled, { c with files := files', builds := c.builds + 1 }) ∧
      Holds config compiled w files' ∧
      files'.node? (w ++ [name ++ ".unit"]) = some (.file u.artifact.toUTF8) ∧
      (∀ text, (Fingerprint.of text).artifactName ≠ name →
        files'.node? (w ++ [unitName text]) = c.files.node? (w ++ [unitName text])) ∧
      c.files.SameOutside files' w ∧
      ∀ other, Placeable config c.files other → Placeable config files' other := by
  have done := holds.compileStored_eq_ok sound built hconfig inProcess assembled placeable
  have after := (holds.compileStored sound built hconfig inProcess storable).1
  rw [done] at after
  have free := holds.free_source built
  have full : w ++ [name ++ ".src"] ≠ [] := List.concat_ne_nil _ _
  have keeps := keeps_assign (some listing.toUTF8) full free
  refine ⟨_, done, after, node?_assign_self, ?_,
    (sameOutside_assign _ w _ _).trans (sameOutside_assign _ w _ _), ?_⟩
  · intro text ne
    have apart : unitName text ≠ name ++ ".unit" := fun same => ne (append_inj same)
    have other : unitName text ≠ name ++ ".src" := append_src_ne_append_unit.symm
    rw [node?_assign_of_name_ne apart, node?_assign_of_name_ne other]
  · intro other placeable'
    have unit_free : (c.files.assign (w ++ [name ++ ".src"]) (some listing.toUTF8)).node?
        (w ++ [name ++ ".unit"]) ≠ some .directory := by
      rw [node?_assign_of_name_ne append_src_ne_append_unit.symm]
      exact holds.free_unit built
    have stored := placeable'.assign (some listing.toUTF8) holds.leads.directory free
      getLast?_append_src
    exact stored.assign _ (keeps.directory w holds.leads.directory) unit_free getLast?_append_unit

end Holds

/-- A build makes the work directory and then goes on as if it had been there. -/
theorem BuildCache.compileStored_of_made {source : Option String}
    (made : c.files.createDirectories c.config.workDir = .ok files)
    (again : files.createDirectories c.config.workDir = .ok files) :
    c.compileStored source name = { c with files }.compileStored source name := by
  unfold BuildCache.compileStored
  dsimp only
  rw [createDirectories_eq_ok_iff.mp made, createDirectories_eq_ok_iff.mp again]

/-- A build fails where the work directory cannot be made. -/
theorem BuildCache.compileStored_of_unpaved {e : IoError}
    (failed : c.files.pave c.config.workDir = (.error e, files)) (source : Option String)
    (name : String) :
    c.compileStored source name = (.error (.file c.config.workDir e), { c with files }) := by
  unfold BuildCache.compileStored
  rw [failed]

/-- Nothing is built where there is no work directory and none was made. -/
theorem compileStored_of_absent (sound : config.Sound) (built : IsBuilt config name)
    (hconfig : c.config = config) (inProcess : c.compiler = .inProcess)
    (absent : ∀ w, ¬ c.files.Leads config.workDir w) {source : Option String}
    (made : c.files.createDirectories c.config.workDir = .ok c.files) :
    (c.compileStored source name).2.files = c.files := by
  unfold BuildCache.compileStored
  rw [createDirectories_eq_ok_iff.mp made]
  cases source with
  | none => exact compile_of_absent sound built hconfig inProcess absent
  | some listing =>
      obtain ⟨e, failed⟩ := publish_of_absent listing (sound.plain_of_isBuilt built) absent
      rw [← hconfig] at failed
      dsimp only
      rw [failed]

namespace Settled

variable {before : FileTree}

/-- Where nothing was done yet, a build makes the work directory or none. -/
theorem compileStored_of_absent (sound : config.Sound) (vacant : Vacant config c.files)
    (built : IsBuilt config name) (hconfig : c.config = config)
    (inProcess : c.compiler = .inProcess) {source : Option String}
    (absent : ∀ w, ¬ c.files.Leads config.workDir w) (storable : Storable compiled c name source)
    (room : config.HasRoom) :
    Settled config compiled c.files (c.compileStored source name).2.files := by
  rcases pave_cases c.files c.config.workDir with ⟨files, made, -⟩ | ⟨e, files, -, failed⟩
  · by_cases there : ∃ w, files.Leads config.workDir w
    · obtain ⟨w, leads⟩ := there
      have vacated : c.files.createDirectories config.workDir = .ok files := hconfig ▸ made
      have holds : Holds config compiled w files := vacant.holds room vacated leads
      have storable' : Storable compiled { c with files } name source := by
        intro listing hlisting text query
        obtain ⟨-, rest⟩ := storable listing hlisting text query
        refine ⟨?_, rest⟩
        rw [← query]
        exact (holds.lookup_eq_none_iff (c := { c with files }) hconfig).mpr
          (vacant.unit files w vacated leads text)
      rw [BuildCache.compileStored_of_made made (hconfig ▸ holds.createDirectories)]
      exact Or.inr (Or.inl ⟨w, (holds.compileStored (c := { c with files }) sound built hconfig
        inProcess storable').1⟩)
    · have unchanged : files = c.files := by
        rw [hconfig] at made
        rcases (createDirectories_eq_ok made).2 with ⟨-, h⟩ | ⟨-, h⟩
        · exact h
        · exact absurd h there
      subst unchanged
      rw [TemporalDB.compileStored_of_absent sound built hconfig inProcess absent made]
      exact Or.inr (Or.inr ⟨Or.inl rfl, absent⟩)
  · rw [BuildCache.compileStored_of_unpaved failed]
    exact Or.inr (Or.inr (.of_error room (hconfig ▸ failed)))

/-- **A build leaves such files** and the units of all other names. -/
theorem compileStored (sound : config.Sound) (vacant : Vacant config before)
    (built : IsBuilt config name) (hconfig : c.config = config)
    (inProcess : c.compiler = .inProcess) {source : Option String}
    (settled : Settled config compiled before c.files) (storable : Storable compiled c name source) :
    Settled config compiled before (c.compileStored source name).2.files ∧
      Leaves config name c.files (c.compileStored source name).2.files := by
  by_cases room : config.HasRoom
  · rcases settled with cramped | ⟨w, holds⟩ | ⟨idle, absent⟩
    · exact absurd room cramped
    · obtain ⟨after, leaves⟩ := holds.compileStored sound built hconfig inProcess storable
      exact ⟨Or.inr (Or.inl ⟨w, after⟩), leaves⟩
    · refine ⟨?_, fun text u _ read => ?_⟩
      · rcases idle with rfl | ⟨e, failed⟩
        · exact compileStored_of_absent sound vacant built hconfig inProcess absent storable room
        · -- what could not be made cannot be made now
          obtain ⟨-, e', again⟩ := pave_of_error failed
          rw [BuildCache.compileStored_of_unpaved (hconfig ▸ again)]
          exact Or.inr (Or.inr (.of_error room failed))
      · obtain ⟨-, w, leads⟩ := leads_of_readUnit read
        exact absurd leads (absent w)
  · refine ⟨Or.inl room, ?_⟩
    intro text u _ read
    exact absurd (leads_of_readUnit read).1 room

end Settled

end TemporalDB
