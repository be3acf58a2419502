import TemporalDB.Proofs.Assembly.Relation

/-!
# Listings of schemas, written and assembled

What is written for a schema is assembled to the schema itself, for schemas that declarations give
and for those that any listing gives, in which relations and columns may share their names.
-/

namespace TemporalDB

open Text Listing Assembly

namespace Listing

variable {s : Schema}

/-- **The schemas that listings hold** are those whose relations a listing can hold. -/
theorem exists_assemble_definition_iff : (∃ listing u, assemble listing = .ok u ∧
    u.program = .definition s) ↔ ∀ r ∈ s.relations, r.Writable := by
  constructor
  · rintro ⟨listing, u, hu, hs⟩
    exact writable_of_assemble hu hs
  · intro h
    exact ⟨_, _, assemble_ofSchema h, rfl⟩

/-- **A schema's listing is assembled to the schema.** So it is for every schema that was read from
declarations, and for every schema that was assembled from some listing, whatever names are repeated
there. The unit exports the entry points of a definition, whatever the first listing exported. -/
theorem assemble_definition_round_trip :
    (∀ (text : String) (s : Schema), Sql.parseSchema text = .ok s →
      assemble (ofSchema s).text = .ok (definitionUnit s)) ∧
      ∀ (listing : String) (u : CompiledUnit) (s : Schema), assemble listing = .ok u →
        u.program = .definition s → assemble (ofSchema s).text = .ok (definitionUnit s) := by
  constructor
  · intro text s h
    apply assemble_ofSchema
    intro r hr
    have declared : r.Declared := (Sql.declared_of_parseSchema h).relations r hr
    exact declared.writable (Sql.admitted_of_parseSchema h r hr)
  · intro listing u s h hs
    exact assemble_ofSchema (writable_of_assemble h hs)

def seating : String :=
  "CREATE TABLE seat (tier INT, price NUMERIC(6, 2), spot CHAR(1), PRIMARY KEY (spot, tier))"

def seatingSchema : Schema :=
  ⟨[⟨"seat", [⟨"tier", .integer, true⟩, ⟨"price", .numeric 6 2, false⟩, ⟨"spot", .char 1, true⟩],
      [2, 0], false⟩]⟩

/-- A listing that repeats the names of relations and columns, and a column of a key. -/
def repeating : String :=
  "unit definition\nrelation \"a\\n\" plain\ncolumn \"x\" int\ncolumn \"x\" char(3) notnull\n" ++
    "key \"x\" \"x\"\nend\n;\nrelation \"a\\n\" temporal\ncolumn \"X\" DECIMAL(7,02)\nkey \"X\"\nend"

def repeatingSchema : Schema :=
  ⟨[⟨"a\n", [⟨"x", .integer, false⟩, ⟨"x", .char 3, true⟩], [0, 0], false⟩,
    ⟨"a\n", [⟨"X", .numeric 7 2, false⟩], [0], true⟩]⟩

theorem assemble_definition_round_trip_repeating :
    assemble (ofSchema seatingSchema).text = .ok (definitionUnit seatingSchema) ∧
      assemble (ofSchema repeatingSchema).text = .ok (definitionUnit repeatingSchema) := by
  obtain ⟨declared, assembled⟩ := assemble_definition_round_trip
  constructor
  · exact declared seating seatingSchema (by decide +kernel)
  · have read : assemble repeating =
        .ok ⟨abiVersion, [], .definition repeatingSchema⟩ := by decide +kernel
    exact assembled repeating _ repeatingSchema read rfl

end Listing

end TemporalDB
