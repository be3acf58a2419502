import TemporalDB.Proofs.Pipeline.Run

/-!
# What is compiled

A text that is planned to a listing that assembles is compiled, once the work directory is there and
temporary files can be made in it. The unit stays when the definition is built again, whatever the
schema.
-/

namespace TemporalDB.Pipeline

open FileTree

variable [Tags] {config : Configuration} {compiled : String → Schema → Prop} {text listing : String}
  {schema : Schema} {p p' : Pipeline} {d : Definition} {w : List String} {u : CompiledUnit}

/-- A pipeline on a work directory that is there. -/
structure Ready (config : Configuration) (compiled : String → Schema → Prop) (w : List String)
    (p : Pipeline) : Prop where
  configured : p.config = config
  compiler : p.cache.compiler = .inProcess
  holds : Holds config compiled w p.files

/-- Whatever could be built can be built still. -/
def Allows (config : Configuration) (p p' : Pipeline) : Prop :=
  ∀ name, Placeable config p.files name → Placeable config p'.files name

namespace Ready

theorem lookup_eq_none_iff (ready : Ready config compiled w p) :
    p.cache.lookup (Fingerprint.of text).artifactName = none ↔
      p.files.node? (w ++ [unitName text]) = none :=
  Holds.lookup_eq_none_iff (c := p.cache) ready.configured ready.holds

/-- **A schema whose listing assembles is built** to its definition, and the units of queries stay. -/
theorem compileSchema_eq_ok (sound : config.Sound) (ready : Ready config compiled w p)
    (placeable : Placeable config p.files config.definitionName)
    (parsed : Sql.parseSchema text = .ok schema)
    (assembled : Assembly.assemble (Listing.ofSchema schema).text = .ok u) :
    ∃ p', p.compileSchema text =
        (.ok ⟨config.artifactPath config.definitionName, schema, .compiled⟩, p') ∧
      Ready config compiled w p' ∧ Allows config p p' ∧
      ∀ query, p'.cache.lookup (Fingerprint.of query).artifactName = none ↔
        p.cache.lookup (Fingerprint.of query).artifactName = none := by
  have storable : Storable compiled p.cache config.definitionName
      (some (Listing.ofSchema schema).text) := fun _ _ query same => absurd same (sound.apart query)
  obtain ⟨files, done, holds, -, elsewhere, -, allows⟩ := Holds.compileStored_builds (c := p.cache) sound
    (Or.inl rfl) ready.configured ready.compiler ready.holds storable assembled placeable
  have after : Ready config compiled w ⟨{ p.cache with files, builds := p.cache.builds + 1 },
      p.loader.invalidate (config.artifactPath config.definitionName)⟩ :=
    ⟨ready.configured, ready.compiler, holds⟩
  refine ⟨_, ?_, after, allows, ?_⟩
  · rw [compileSchema_of_parsed parsed, ready.configured, done]
  · intro query
    rw [after.lookup_eq_none_iff, ready.lookup_eq_none_iff]
    exact iff_of_eq (congrArg (· = none) (elsewhere query (sound.apart query)))

/-- **A text that is planned to a listing that assembles is built.** -/
theorem compileQuery_eq_ok (sound : config.Sound) (ready : Ready config compiled w p)
    (placeable : Placeable config p.files (Fingerprint.of text).artifactName)
    (h : compiled text d.schema)
    (absent : p.cache.lookup (Fingerprint.of text).artifactName = none)
    (hplanned : planned text d.schema = .ok listing)
    (assembled : Assembly.assemble listing = .ok u) :
    ∃ q p', p.compileQuery text d = (.ok q, p') ∧ Ready config compiled w p' ∧
      Allows config p p' ∧ p'.cache.lookup (Fingerprint.of text).artifactName ≠ none := by
  obtain ⟨files, done, holds, stored, -, -, allows⟩ := Holds.compileStored_builds (c := p.cache) sound
    (Or.inr ⟨text, rfl⟩) ready.configured ready.compiler ready.holds
    (storable_of_planned h absent hplanned) assembled placeable
  have after : Ready config compiled w ⟨{ p.cache with files, builds := p.cache.builds + 1 },
      p.loader.invalidate (config.artifactPath (Fingerprint.of text).artifactName)⟩ :=
    ⟨ready.configured, ready.compiler, holds⟩
  refine ⟨⟨.of text, (Fingerprint.of text).artifactName,
    config.artifactPath (Fingerprint.of text).artifactName, .compiled⟩, _, ?_, after, allows, ?_⟩
  · rw [compileQuery_of_ok absent hplanned, ready.configured, done]
    rfl
  · rw [Ne, after.lookup_eq_none_iff]
    intro none
    exact absurd (stored.symm.trans none) (Option.some_ne_none _)

end Ready

end TemporalDB.Pipeline
