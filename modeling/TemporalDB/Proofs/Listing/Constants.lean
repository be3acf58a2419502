import TemporalDB.Proofs.Assembly.Necessity
import TemporalDB.Proofs.Listing.RoundTrip
import TemporalDB.Proofs.Plan.Typing
import TemporalDB.Proofs.Value

/-!
# Constants in listings

The constants of a listing stand there as results show them, and they are read as literals are. All
values come back so but the instants whose year has not four digits: the text of such an instant is
no literal, so a query with one is planned and written, and then its listing is refused.
-/

namespace TemporalDB

open Text Listing Assembly

namespace Plan

variable {r : Relation} {slots : List Slot} {type : ScalarType} {o : Operand} {op : Operation}
  {a : Access}

theorem stands_of_mem_access (h : TypedAccess r slots a) {c : Clause}
    (hc : c ∈ Operation.accessClauses a) : ∀ o ∈ c.operands, ∃ i, StandsAt r slots i o := by
  intro o ho
  rcases List.mem_append.mp hc with hs | hf
  · obtain ⟨key, hkey, rfl⟩ := Option.map_eq_some_iff.mp (Option.mem_toList.mp hs)
    obtain ⟨k, -, stands⟩ := exists_mem_of_forall₂ (h.seek key hkey) o ho
    exact ⟨k, stands⟩
  · obtain ⟨f, hmem, rfl⟩ := List.mem_map.mp hf
    obtain rfl := List.mem_singleton.mp ho
    exact ⟨f.column, h.filters f hmem⟩

/-- Every operand of a typed operation stands for some value of its statement. -/
theorem stands_of_mem_operands (h : Typed r slots op) :
    ∀ o ∈ op.operands, (∃ i, StandsAt r slots i o) ∨ Stands slots .timestamp o := by
  intro o ho
  obtain ⟨c, hc, hoc⟩ := List.mem_flatMap.mp ho
  cases h with
  | insert typed =>
      obtain ⟨s, hs, rfl⟩ := List.mem_map.mp hc
      obtain rfl := List.mem_singleton.mp hoc
      exact .inl ⟨s.1, typed s hs⟩
  | update sets rows =>
      rcases List.mem_append.mp hc with hset | hacc
      · obtain ⟨s, hs, rfl⟩ := List.mem_map.mp hset
        obtain rfl := List.mem_singleton.mp hoc
        exact .inl ⟨s.1, (sets s hs).1⟩
      · exact .inl (stands_of_mem_access rows hacc o hoc)
  | delete rows => exact .inl (stands_of_mem_access rows hc o hoc)
  | select places instant rows =>
      rcases List.mem_cons.mp hc with rfl | hc
      · exact absurd hoc List.not_mem_nil
      rcases List.mem_append.mp hc with hi | hacc
      · obtain ⟨o', ho', rfl⟩ := Option.map_eq_some_iff.mp (Option.mem_toList.mp hi)
        obtain rfl := List.mem_singleton.mp hoc
        exact .inr (instant o ho')
      · exact .inl (stands_of_mem_access rows hacc o hoc)

theorem definite_of_stands (admitted : type.Admitted) (h : Stands slots type o) : o.Definite := by
  cases o with
  | param i t => trivial
  | const t v =>
      obtain rfl : t = type := h.type_eq
      obtain ⟨s, read⟩ := h.exists_read
      exact fun w back => ScalarType.eq_of_readValue_display admitted read back

end Plan

namespace Listing

variable {r : Relation} {op : Operation} {statement : Statement} {o : Operand}

/-- The types of a planned operation are given by declarations, as those of the relation are, and
only the constants themselves are read from their texts. -/
theorem definite_of_planned (admitted : r.Admitted) (h : Plan.operationOf r statement = .ok op) :
    ∀ o ∈ op.operands, o.type.Admitted ∧ o.Definite ∧
      ∀ type v, o = .const type v → ∃ s, type.readValue s = .ok v := by
  have stands : ∀ {type : ScalarType} {o : Operand}, type.Admitted →
      Plan.Stands (Plan.slotsOf r statement) type o → o.type.Admitted ∧ o.Definite ∧
        ∀ type v, o = .const type v → ∃ s, type.readValue s = .ok v := by
    intro type o admitted stands
    refine ⟨stands.type_eq ▸ admitted, Plan.definite_of_stands admitted stands, ?_⟩
    rintro t v rfl
    obtain rfl : t = type := stands.type_eq
    exact stands.exists_read
  intro o ho
  rcases Plan.stands_of_mem_operands (Plan.typed_operationOf h) o ho with ⟨i, c, hc, there⟩ | there
  · exact stands (admitted c (List.mem_of_getElem? hc)) there
  · exact stands ⟨"timestamp", [], by decide⟩ there

/-- A planned operation's constants are read back just if they are legible. -/
theorem rereads_iff (admitted : r.Admitted) (h : Plan.operationOf r statement = .ok op) :
    op.Rereads ↔ ∀ type v, .const type v ∈ op.operands → v.Legible := by
  have planned := definite_of_planned admitted h
  have iff : ∀ type v, .const type v ∈ op.operands →
      (type.readValue v.display = .ok v ↔ v.Legible) := by
    intro type v hv
    have typed : type.Admitted := (planned _ hv).1
    obtain ⟨s, hs⟩ := (planned _ hv).2.2 type v rfl
    rw [ScalarType.readValue_display_of_readValue typed hs]
    split_ifs with legible <;> simp [legible]
  constructor
  · intro rereads type v hv
    exact (iff type v hv).mp (rereads _ hv)
  · intro legible o ho
    cases o with
    | param i type => trivial
    | const type v => exact (iff type v ho).mpr (legible type v ho)

/-- The operation of a query with a listing that is assembled is well formed, and its constants are
read back. -/
theorem exists_assemble_source_iff {text : String} {q : Query} {s : Schema} {source : Source}
    (hq : Sql.parseQuery text = .ok q) (admitted : s.Admitted)
    (h : ofQuery q s = .ok source) : ∃ r op, s.relation? q.statement.table = some r ∧
      Plan.operationOf r q.statement = .ok op ∧
      ((∃ u, assemble source.text = .ok u) ↔
        q.paramCount < bound64 ∧ (q.explain = true ∨ op.WellFormed ∧ op.Rereads)) := by
  obtain ⟨r, op, hr, hop, htext⟩ := ofQuery_eq_ok h
  refine ⟨r, op, hr, hop, ?_⟩
  have typed : r.Admitted := admitted r (List.mem_of_find?_eq_some hr)
  have planned := definite_of_planned typed hop
  rw [htext, listingOf]
  cases explain : q.explain with
  | true =>
      -- a listing that explains has no constants
      simp only [if_true, true_or, and_true]
      constructor
      · rintro ⟨u, hu⟩
        obtain ⟨last, x, hx⟩ :=
          exists_of_assemble (List.forall_mem_singleton.mpr readable_explanation) hu
        exact lt_of_query hx
      · exact fun small => ⟨_, assemble_explain small⟩
  | false =>
      simp only [Bool.false_eq_true, if_false, false_or]
      refine exists_assemble_iff (fun o ho => (planned o ho).1) (fun o ho => (planned o ho).2.1)
        (fun c hc => (Plan.operationOf_eq_ok hop c hc).key) ?_
      rintro assignments access rfl
      exact Plan.assignments_ne_nil hop (Sql.assigns_of_parseQuery hq)

/-- **What a query's listing is assembled to is what the query was planned as.** -/
theorem assembled_eq {text : String} {q : Query} {s : Schema} {source : Source} {u : CompiledUnit}
    (hq : Sql.parseQuery text = .ok q) (admitted : s.Admitted) (h : ofQuery q s = .ok source)
    (hu : assemble source.text = .ok u) : ∃ r op, s.relation? q.statement.table = some r ∧
      Plan.operationOf r q.statement = .ok op ∧
      u = queryUnit q.paramCount r.name (bodyOf q op) := by
  obtain ⟨r, op, hr, hop, htext⟩ := ofQuery_eq_ok h
  obtain ⟨r', op', hr', hop', assembled⟩ := exists_assemble_source_iff hq admitted h
  cases hr.symm.trans hr'
  cases hop.symm.trans hop'
  obtain ⟨small, good⟩ := assembled.mp ⟨u, hu⟩
  refine ⟨r, op, hr, hop, ?_⟩
  rw [htext, listingOf] at hu
  unfold bodyOf
  cases explain : q.explain with
  | true =>
      rw [explain, if_pos rfl, assemble_explain small] at hu
      exact (Except.ok.inj hu).symm
  | false =>
      rw [explain] at good hu
      obtain ⟨wellFormed, rereads⟩ := good.resolve_left Bool.false_ne_true
      rw [if_neg Bool.false_ne_true, assemble_execute small wellFormed rereads] at hu
      exact (Except.ok.inj hu).symm

/-- **Constants come back from listings, all but instants of far years.** A value that was read as
one of an admitted type is read back from the text that listings show of it, unless it is an instant
whose year has not four digits: the text of such an instant is refused. So of the listings that are
written for queries just those are assembled that explain, or have no such constant. Counts and
places are held in 64 bits. -/
theorem constants_read_back (s : Schema) (admitted : s.Admitted)
    (arity : ∀ r ∈ s.relations, r.arity ≤ bound64) :
    (∀ (type : ScalarType) (literal : String) (v : Value), type.Admitted →
      type.readValue literal = .ok v → type.readValue v.display =
        if v.Legible then .ok v else .error (.invalidLiteral type v.display)) ∧
      ∀ (text : String) (q : Query) (source : Source), Sql.parseQuery text = .ok q →
        q.paramCount < bound64 → ofQuery q s = .ok source →
          ∃ r op, s.relation? q.statement.table = some r ∧
            Plan.operationOf r q.statement = .ok op ∧
            ((∃ u, assemble source.text = .ok u) ↔
              q.explain = true ∨ ∀ type v, .const type v ∈ op.operands → v.Legible) := by
  refine ⟨fun type literal v typed h => ScalarType.readValue_display_of_readValue typed h, ?_⟩
  intro text q source hq small h
  obtain ⟨r, op, hr, hop, assembled⟩ := exists_assemble_source_iff hq admitted h
  refine ⟨r, op, hr, hop, assembled.trans ?_⟩
  have wellFormed : op.WellFormed := wellFormed_of_planned admitted arity hq small hr hop
  rw [rereads_iff (admitted r (List.mem_of_find?_eq_some hr)) hop]
  simp only [small, wellFormed, true_and]

def moment : Relation := ⟨"moment", [⟨"at", .timestamp, true⟩], [0], false⟩

def keeping (literal : String) : String := "INSERT INTO moment VALUES ('" ++ literal ++ "')"

def keepingQuery (literal : String) : Query :=
  ⟨.insert "moment" none [.literal (.string literal)], false⟩

/-- A leap second at the end of the year 9999, as a clock one hour ahead shows it. -/
def leapLiteral : String := " 9999-12-31T23:59:60.5+01:00"

/-- The first moment of the year ten thousand. -/
def farLiteral : String := "+10000-01-01 00:00:00"

def instantOf (literal : String) : Instant :=
  (Instant.read (trim literal.toList)).getD .first

theorem constants_read_back_leap :
    ScalarType.readValue .timestamp (Value.timestamp (instantOf leapLiteral)).display =
        .ok (.timestamp (instantOf leapLiteral)) ∧
      ∃ source u, ofQuery (keepingQuery leapLiteral) ⟨[moment]⟩ = .ok source ∧
        assemble source.text = .ok u := by
  obtain ⟨values, listings⟩ := constants_read_back ⟨[moment]⟩ (by decide) (by decide)
  have read : ScalarType.readValue .timestamp leapLiteral =
      .ok (.timestamp (instantOf leapLiteral)) := by decide +kernel
  have legible : (Value.timestamp (instantOf leapLiteral)).Legible := by decide +kernel
  have admitted : ScalarType.timestamp.Admitted := by decide
  refine ⟨(values .timestamp leapLiteral _ admitted read).trans (if_pos legible), ?_⟩
  cases hs : ofQuery (keepingQuery leapLiteral) ⟨[moment]⟩ with
  | error e =>
      have found : (ofQuery (keepingQuery leapLiteral) ⟨[moment]⟩).isOk = true := by decide +kernel
      rw [hs] at found
      cases found
  | ok source =>
      obtain ⟨r, op, hr, hop, assembled⟩ := listings (keeping leapLiteral) (keepingQuery leapLiteral)
        source (by decide +kernel) (by decide +kernel) hs
      have relation : Schema.relation? ⟨[moment]⟩ "moment" = some moment := by decide +kernel
      cases relation.symm.trans hr
      have planned : Plan.operationOf moment (keepingQuery leapLiteral).statement =
          .ok (.insert [(0, .const .timestamp (.timestamp (instantOf leapLiteral)))]) := by
        decide +kernel
      cases planned.symm.trans hop
      obtain ⟨u, hu⟩ := assembled.mpr (.inr (by
        intro type v hv
        obtain ⟨rfl, rfl⟩ : type = .timestamp ∧ v = .timestamp (instantOf leapLiteral) := by
          simpa [Operation.operands, Operation.clauses, Clause.operands] using hv
        exact legible))
      exact ⟨source, u, rfl, hu⟩

theorem far_constant_lost :
    ScalarType.readValue .timestamp farLiteral = .ok (.timestamp (instantOf farLiteral)) ∧
      ScalarType.readValue .timestamp (Value.timestamp (instantOf farLiteral)).display ≠
        .ok (.timestamp (instantOf farLiteral)) ∧
      Sql.parseQuery (keeping farLiteral) = .ok (keepingQuery farLiteral) ∧
      ∃ source, ofQuery (keepingQuery farLiteral) ⟨[moment]⟩ = .ok source ∧
        (assemble source.text).isOk = false := by
  refine ⟨by decide +kernel, by decide +kernel, by decide +kernel, ?_⟩
  have refused : (ofQuery (keepingQuery farLiteral) ⟨[moment]⟩).toOption.any
      (fun source => !(assemble source.text).isOk) = true := by decide +kernel
  cases hs : ofQuery (keepingQuery farLiteral) ⟨[moment]⟩ with
  | error e =>
      rw [hs] at refused
      cases refused
  | ok source =>
      rw [hs] at refused
      exact ⟨source, rfl, Bool.not_eq_true' _ |>.mp refused⟩

end Listing

end TemporalDB
