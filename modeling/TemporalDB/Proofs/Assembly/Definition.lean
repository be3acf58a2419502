import TemporalDB.Assembly
import TemporalDB.Listing.Rendering
import TemporalDB.Proofs.Listing.Line
import TemporalDB.Proofs.ScalarType

/-!
# The lines of a definition

The listing of a schema is read as it is written: names stand in quotes, and the words beside them
are those of types and of a few keywords.
-/

namespace TemporalDB

open Text Listing Assembly

namespace Listing

variable {c : Column} {r : Relation} {s : Schema}

def definitionDirectives (s : Schema) : List Directive :=
  [⟨"unit", some [.word "definition"]⟩, ⟨"export", some [.word EntryPoint.makeDatabase]⟩,
    ⟨"export", some [.word EntryPoint.getSize]⟩] ++ s.relations.flatMap ofRelation

theorem readable_ofColumn : (ofColumn c).Readable := by
  refine Directive.readable_mk (by decide) ?_
  intro t ht
  rcases List.mem_append.mp ht with ht | ht
  · simp only [List.mem_cons, List.not_mem_nil, or_false] at ht
    rcases ht with rfl | rfl
    · trivial
    · exact ScalarType.isWord_text
  · split at ht
    · obtain rfl := List.mem_singleton.mp ht
      exact (by decide : IsWord "notnull")
    · cases ht

theorem readable_ofRelation : ∀ d ∈ ofRelation r, d.Readable := by
  unfold ofRelation
  simp only [List.cons_append, List.forall_mem_cons, List.forall_mem_append]
  refine ⟨?_, ?_, ?_, ?_, List.forall_mem_nil _⟩
  · refine Directive.readable_mk (by decide) ?_
    simp only [Option.getD_some, List.forall_mem_cons]
    refine ⟨trivial, ?_, List.forall_mem_nil _⟩
    cases r.temporal with
    | true => exact (by decide : IsWord "temporal")
    | false => exact (by decide : IsWord "plain")
  · intro d hd
    obtain ⟨c, -, rfl⟩ := List.mem_map.mp hd
    exact readable_ofColumn
  · refine Directive.readable_mk (by decide) ?_
    intro t ht
    obtain ⟨i, -, rfl⟩ := List.mem_map.mp ht
    trivial
  · exact Directive.readable_mk (by decide) (List.forall_mem_nil _)

theorem readable_definitionDirectives : ∀ d ∈ definitionDirectives s, d.Readable := by
  have word : ∀ {keyword w : String}, IsKeyword keyword → IsWord w →
      Directive.Readable ⟨keyword, some [.word w]⟩ := fun hk hw =>
    Directive.readable_mk hk (List.forall_mem_singleton.mpr hw)
  unfold definitionDirectives
  simp only [List.cons_append, List.nil_append, List.forall_mem_cons]
  refine ⟨word (by decide) (by decide), word (by decide) (by decide),
    word (by decide) (by decide), ?_⟩
  intro d hd
  obtain ⟨r, -, hr⟩ := List.mem_flatMap.mp hd
  exact readable_ofRelation d hr

/-- **The listing of a schema is assembled from the lines that it was written as.** -/
theorem assemble_ofSchema_eq : assemble (ofSchema s).text =
    assembleLines (numbered 2 (definitionDirectives s))
      (lines (ofSchema s).text.toList).length := by
  have read : readLines (ofSchema s).text = .ok (numbered 2 (definitionDirectives s)) :=
    readLines_comment_textOf _ readable_definitionDirectives
  rw [assemble, read]

end Listing

end TemporalDB
