import TemporalDB.Proofs.Assembly.Query
import TemporalDB.Proofs.Plan
import TemporalDB.Proofs.Sql.Grammar

/-!
# Listings of queries, written and assembled

What is written for a query is assembled to just what the query was planned as, whatever stands in
its table's name, its constants and its description.
-/

namespace TemporalDB

open Text Listing Assembly

namespace Listing

/-- The listing of a query's program, described by a text. -/
def listingOf (description : String) (params : Nat) (table : String) (body : List Directive) :
    String :=
  comment description ++ textOf (queryHeader params table ++ body)

def queryUnit (params : Nat) (table : String) (body : Body) : CompiledUnit :=
  ⟨abiVersion, [EntryPoint.query], .query ⟨params, table, body⟩⟩

/-- The body that a query has once it is planned as an operation. -/
def bodyOf (q : Query) (op : Operation) : Body :=
  if q.explain then .explain (operationText op) else .execute op

theorem ofQuery_eq_ok {q : Query} {s : Schema} {source : Source} (h : ofQuery q s = .ok source) :
    ∃ r op, s.relation? q.statement.table = some r ∧ Plan.operationOf r q.statement = .ok op ∧
      source.text = listingOf q.display q.paramCount r.name
        (if q.explain then [explanation (operationText op)] else ofOperation op) := by
  unfold ofQuery at h
  split at h
  · cases h
  · next r hr =>
      obtain ⟨op, hop, h⟩ := bind_eq_ok_iff.mp h
      cases h
      exact ⟨r, op, hr, hop, rfl⟩

/-- The operation that a query on a schema is planned as is well formed. -/
theorem wellFormed_of_planned {text : String} {q : Query} {s : Schema} {r : Relation}
    {op : Operation} (admitted : s.Admitted) (arity : ∀ r ∈ s.relations, r.arity ≤ bound64)
    (hq : Sql.parseQuery text = .ok q) (params : q.paramCount < bound64)
    (hr : s.relation? q.statement.table = some r) (hop : Plan.operationOf r q.statement = .ok op) :
    op.WellFormed := by
  have mem : r ∈ s.relations := List.mem_of_find?_eq_some hr
  refine Plan.wellFormed_operationOf hop (admitted r mem) (arity r mem) ?_
    (Sql.assigns_of_parseQuery hq)
  intro i hi
  exact Nat.lt_trans (Query.lt_paramCount hi) params

/-- **A query's listing is assembled to the program that it was written from.** For a well-formed
operation whose constants are read back from their texts this is the operation, or the text that
explains it. So what is written for a query that was read, on any schema of types that declarations
can give, is assembled to the operation that the query is planned as, and two such operations never
have the same text. Counts and places are held in 64 bits. -/
theorem assemble_listing_round_trip :
    (∀ (op : Operation) (params : Nat) (table description : String),
      op.WellFormed → op.Rereads → params < bound64 →
        assemble (listingOf description params table (ofOperation op)) =
            .ok (queryUnit params table (.execute op)) ∧
          assemble (listingOf description params table [explanation (operationText op)]) =
            .ok (queryUnit params table (.explain (operationText op)))) ∧
      (∀ (text : String) (q : Query) (s : Schema) (source : Source),
        Sql.parseQuery text = .ok q → q.paramCount < bound64 →
          s.Admitted → (∀ r ∈ s.relations, r.arity ≤ bound64) → ofQuery q s = .ok source →
            ∃ r op, s.relation? q.statement.table = some r ∧
              Plan.operationOf r q.statement = .ok op ∧ op.WellFormed ∧
              (op.Rereads →
                assemble source.text = .ok (queryUnit q.paramCount r.name (bodyOf q op)))) ∧
      ∀ op op' : Operation, op.WellFormed → op.Rereads → op'.WellFormed → op'.Rereads →
        operationText op = operationText op' → op = op' := by
  refine ⟨?_, ?_, ?_⟩
  · intro op params table description wellFormed rereads hn
    exact ⟨assemble_execute hn wellFormed rereads, assemble_explain hn⟩
  · intro text q s source hq hn admitted arity hsource
    obtain ⟨r, op, hr, hop, htext⟩ := ofQuery_eq_ok hsource
    have wellFormed : op.WellFormed := wellFormed_of_planned admitted arity hq hn hr hop
    refine ⟨r, op, hr, hop, wellFormed, ?_⟩
    intro rereads
    rw [htext, bodyOf, listingOf]
    split
    · exact assemble_explain hn
    · exact assemble_execute hn wellFormed rereads
  · intro op op' wellFormed rereads wellFormed' rereads' h
    exact operationText_injective wellFormed rereads wellFormed' rereads' h

def part : Relation :=
  ⟨"part", [⟨"code", .varchar 8, true⟩, ⟨"note", .varchar 40, false⟩,
    ⟨"price", .numeric 6 2, false⟩], [0], true⟩

def workshop : Schema := ⟨[part]⟩

/-- A note with what a listing could take for its own, as a query. -/
def renoting : String :=
  "UPDATE part SET note = '; end \"\\n\"\r\nend', price = ? WHERE code = 'a b' AND price < 2.5"

def renotingQuery : Query :=
  ⟨.update "part" [⟨"note", .literal (.string "; end \"\\n\"\r\nend")⟩, ⟨"price", .param 0⟩]
    [⟨"code", .eq, .literal (.string "a b")⟩, ⟨"price", .lt, .literal (.number "2.5")⟩], false⟩

def renotingOperation : Operation :=
  .update [(1, .const (.varchar 40) (.text "; end \"\\n\"\r\nend")), (2, .param 0 (.numeric 6 2))]
    ⟨some [.const (.varchar 8) (.text "a b")], [⟨2, .lt, .const (.numeric 6 2) (.numeric 250 2)⟩]⟩

theorem assemble_listing_round_trip_renoting :
    assemble (listingOf "a\nb" 1 "\"part\"" (ofOperation renotingOperation)) =
        .ok (queryUnit 1 "\"part\"" (.execute renotingOperation)) ∧
      (∃ source, ofQuery renotingQuery workshop = .ok source ∧
        assemble source.text = .ok (queryUnit 1 "part" (.execute renotingOperation))) ∧
      operationText renotingOperation ≠ operationText (.delete ⟨none, []⟩) := by
  obtain ⟨written, queried, injective⟩ := assemble_listing_round_trip
  have wellFormed : renotingOperation.WellFormed := by
    refine ⟨by decide, by decide, by decide, ?_, ?_⟩
    · rintro _ _ ⟨⟩
      exact List.cons_ne_nil _ _
    · simp [renotingOperation, Operation.clauses, Operation.accessClauses]
  have rereads : renotingOperation.Rereads := by decide +kernel
  refine ⟨?_, ?_, ?_⟩
  · exact (written renotingOperation 1 "\"part\"" "a\nb" wellFormed rereads (by decide)).1
  · cases hs : ofQuery renotingQuery workshop with
    | error e =>
        have found : (ofQuery renotingQuery workshop).isOk = true := by decide +kernel
        rw [hs] at found
        cases found
    | ok source =>
        obtain ⟨r, op, hr, hop, -, back⟩ := queried renoting renotingQuery workshop source
          (by decide +kernel) (by decide +kernel) (by decide) (by decide) hs
        have relation : workshop.relation? "part" = some part := by decide +kernel
        cases relation.symm.trans hr
        have planned : Plan.operationOf part renotingQuery.statement = .ok renotingOperation := by
          decide +kernel
        cases planned.symm.trans hop
        exact ⟨source, rfl, back rereads⟩
  · intro h
    have other : (Operation.delete ⟨none, []⟩).WellFormed := by
      refine ⟨by decide, by decide, by decide, ?_, List.not_mem_nil⟩
      rintro _ _ ⟨⟩
    exact absurd (injective _ _ wellFormed rereads other (by decide) h) (by decide)

end Listing

end TemporalDB
