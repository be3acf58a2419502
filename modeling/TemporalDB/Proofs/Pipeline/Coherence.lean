import TemporalDB.Proofs.Loader
import TemporalDB.Proofs.WorkDirectory.Build

/-!
# Open units and their files

A unit of a query that is kept open is the one in its file. Loading keeps it so, and so does a build
or the removal of a unit, if that unit is not kept open.
-/

namespace TemporalDB

open FileTree

variable {config : Configuration} {compiled compiled' : String → Schema → Prop}
  {text name : String} {files files' before : FileTree} {w : List String} {l : Loader}
  {o : OpenUnit} {c : BuildCache}

/-- The units of queries that are kept open are those in their files, and can be run. -/
def Coherent (config : Configuration) (files : FileTree) (l : Loader) : Prop :=
  ∀ text o, l.kept.find? (config.artifactPath (Fingerprint.of text).artifactName).parts = some o →
    Loader.readUnit files (config.artifactPath (Fingerprint.of text).artifactName) = .ok o.unit ∧
      o.unit.provides EntryPoint.query = true

/-! ## Parts of the paths of units -/

theorem parts_unit_inj {text' : String}
    (h : (config.artifactPath (Fingerprint.of text).artifactName).parts =
      (config.artifactPath (Fingerprint.of text').artifactName).parts) :
    Fingerprint.of text = Fingerprint.of text' :=
  of_eq_of_unitName_eq (Path.parts_join_inj (isFileName_unitName text) (isFileName_unitName text') h)

theorem Configuration.Sound.parts_definition_ne (sound : config.Sound) :
    (config.artifactPath (Fingerprint.of text).artifactName).parts ≠
      (config.artifactPath config.definitionName).parts := by
  intro same
  have named : IsFileName (config.definitionName ++ ".unit") :=
    isFileName_append sound.plain (by decide) (by decide)
  exact sound.apart text
    (append_inj (Path.parts_join_inj (isFileName_unitName text) named same))

/-! ## Coherent loaders -/

namespace Coherent

theorem of_nothing (h : l.kept = .empty) : Coherent config files l := by
  intro text o kept
  rw [h] at kept
  cases kept

theorem of_kept {l' : Loader} (coherent : Coherent config files l)
    (h : ∀ text o,
      l'.kept.find? (config.artifactPath (Fingerprint.of text).artifactName).parts = some o →
      l.kept.find? (config.artifactPath (Fingerprint.of text).artifactName).parts = some o) :
    Coherent config files l' := fun text o kept => coherent text o (h text o kept)

theorem release (coherent : Coherent config files l) (u : ExecutionUnit) :
    Coherent config files (l.release u) := coherent

theorem invalidate (coherent : Coherent config files l) (path : Path) :
    Coherent config files (l.invalidate path) := by
  apply coherent.of_kept
  intro text o kept
  by_cases same :
      (config.artifactPath (Fingerprint.of text).artifactName).parts = path.parts
  · unfold Loader.invalidate at kept
    rw [same, OrderedMap.find?_erase_self] at kept
    cases kept
  · unfold Loader.invalidate at kept
    rwa [OrderedMap.find?_erase_of_ne same] at kept

/-- Loading the unit of the definition keeps no unit of a query open. -/
theorem load_definition (sound : config.Sound) (coherent : Coherent config files l)
    (symbols : List String) : Coherent config files
      (l.load files (config.artifactPath config.definitionName) symbols).2 := by
  rcases l.load_cases files (config.artifactPath config.definitionName) symbols with
    ⟨o, -, loaded⟩ | ⟨e, failed⟩
  · rw [loaded]
    apply coherent.of_kept
    intro text kept hkept
    rcases Loader.find?_keep hkept with old | ⟨same, -⟩
    · exact old
    · exact absurd same sound.parts_definition_ne
  · rw [failed]
    exact coherent

/-- Loading the unit of a query keeps at most the one in its file open. -/
theorem load_query (coherent : Coherent config files l) (text : String) :
    Coherent config files (l.load files
      (config.artifactPath (Fingerprint.of text).artifactName) [EntryPoint.query]).2 := by
  rcases l.load_cases files (config.artifactPath (Fingerprint.of text).artifactName)
    [EntryPoint.query] with ⟨o, loads, loaded⟩ | ⟨e, failed⟩
  · rw [loaded]
    intro text' kept hkept
    rcases Loader.find?_keep hkept with old | ⟨same, rfl, fresh⟩
    · exact coherent text' kept old
    · rw [parts_unit_inj same]
      exact ⟨Loader.readUnit_of_find loads.found fresh, loads.provides _ List.mem_cons_self⟩
  · rw [failed]
    exact coherent

/-- A build of a name whose unit is not kept open does not matter. -/
theorem of_leaves (coherent : Coherent config files l) (leaves : Leaves config name files files')
    (closed : ∀ text, (Fingerprint.of text).artifactName = name →
      l.kept.find? (config.artifactPath name).parts = none) : Coherent config files' l := by
  intro text o kept
  obtain ⟨read, provides⟩ := coherent text o kept
  refine ⟨leaves text o.unit ?_ read, provides⟩
  intro same
  rw [same, closed text same] at kept
  cases kept

end Coherent

/-! ## Removing a unit -/

theorem Settled.remove_unit [Tags] (settled : Settled config compiled before files) (text : String) :
    Settled config compiled before
        (files.discard (config.artifactPath (Fingerprint.of text).artifactName)) ∧
      Leaves config (Fingerprint.of text).artifactName files
        (files.discard (config.artifactPath (Fingerprint.of text).artifactName)) := by
  rcases discard_cases files (config.artifactPath (Fingerprint.of text).artifactName) with
    stays | ⟨place, bytes, hplace, -⟩
  · rw [stays]
    exact ⟨settled, fun _ _ _ read => read⟩
  -- A unit that can be removed lies in the work directory.
  obtain ⟨room, w, leads, -⟩ := exists_of_place_unit hplace
  rcases settled with cramped | ⟨w', holds⟩ | ⟨-, absent⟩
  · exact absurd room cramped
  · obtain ⟨after, elsewhere⟩ := holds.remove_unit text
    exact ⟨Or.inr (Or.inl ⟨w', after⟩), holds.leaves after fun other _ ne => elsewhere other ne⟩
  · exact absurd leads (absent w)

end TemporalDB
