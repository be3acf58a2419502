import TemporalDB.Proofs.Assembly.Clause

/-!
# Operations, written and read

An operation is written as its keyword, its clauses and an end, and the clauses of a keyword make
the operation that they were written from.
-/

namespace TemporalDB

open Text Listing Assembly

namespace Operation

def keyword : Operation → String
  | insert .. => "insert"
  | update .. => "update"
  | delete .. => "delete"
  | select .. => "select"

def accessClauses (a : Access) : List Clause :=
  (a.seek.map Clause.seek).toList ++ a.filters.map Clause.filter

def clauses : Operation → List Clause
  | insert values => values.map fun s => .set s.1 s.2
  | update assignments access =>
    assignments.map (fun s => .set s.1 s.2) ++ accessClauses access
  | delete access => accessClauses access
  | select projection asOf access =>
    .project projection :: ((asOf.map Clause.asOf).toList ++ accessClauses access)

def operands (op : Operation) : List Operand := op.clauses.flatMap Clause.operands

def columns (op : Operation) : List Nat := op.clauses.flatMap Clause.columns

/-- Whether the constants of an operation are read back from their texts. -/
def Rereads (op : Operation) : Prop := ∀ o ∈ op.operands, o.Rereads

instance {op : Operation} : Decidable op.Rereads :=
  inferInstanceAs (Decidable (∀ o ∈ op.operands, o.Rereads))

/-- An operation whose listing can be read, its constants aside: declarations can give its types,
its places fit 64 bits, an update assigns something and a key has values. -/
structure WellFormed (op : Operation) : Prop where
  types : ∀ o ∈ op.operands, o.type.Admitted
  params : ∀ o ∈ op.operands, ∀ i ∈ o.place?, i < bound64
  columns : ∀ i ∈ op.columns, i < bound64
  assigns : ∀ assignments access, op = .update assignments access → assignments ≠ []
  key : .seek [] ∉ op.clauses

end Operation

namespace Assembly

variable {op : Operation} {a : Access} {cs : List Clause}

theorem writable_clauses (h : op.WellFormed) (rereads : op.Rereads) :
    ∀ c ∈ op.clauses, c.Writable := by
  intro c hc
  have operand : ∀ o ∈ c.operands, o ∈ op.operands := fun o ho =>
    List.mem_flatMap.mpr ⟨c, hc, ho⟩
  refine ⟨?_, ?_, ?_⟩
  · intro o ho
    exact ⟨h.types o (operand o ho), h.params o (operand o ho), rereads o (operand o ho)⟩
  · intro i hi
    exact h.columns i (List.mem_flatMap.mpr ⟨c, hc, hi⟩)
  · rintro rfl
    exact h.key hc

/-- An operation's lines are those of its clauses between its keyword and an end. -/
theorem ofOperation_eq :
    ofOperation op = ⟨op.keyword, none⟩ :: (op.clauses.map ofClause ++ [stop]) := by
  have access : ∀ a : Access, (Operation.accessClauses a).map ofClause = ofAccess a := by
    intro a
    unfold Operation.accessClauses ofAccess
    rw [List.map_append, List.map_map]
    cases a.seek <;> rfl
  cases op with
  | insert values => simp [ofOperation, Operation.keyword, Operation.clauses, ofClause, stop]
  | update assignments a =>
      simp [ofOperation, Operation.keyword, Operation.clauses, ofClause, stop, ← access]
  | delete a => simp [ofOperation, Operation.keyword, Operation.clauses, stop, ← access]
  | select projection asOf a =>
      cases asOf <;>
        simp [ofOperation, Operation.keyword, Operation.clauses, ofClause, stop, ← access]

theorem countP_isSeek_clauses : op.clauses.countP Clause.isSeek ≤ 1 := by
  have sets : ∀ ss : List (Nat × Operand),
      (ss.map fun s => Clause.set s.1 s.2).countP Clause.isSeek = 0 := by
    intro ss
    simp [List.countP_eq_zero, Clause.isSeek]
  have access : ∀ a : Access, (Operation.accessClauses a).countP Clause.isSeek ≤ 1 := by
    intro a
    have filters : (a.filters.map Clause.filter).countP Clause.isSeek = 0 := by
      simp [List.countP_eq_zero, Clause.isSeek]
    rw [Operation.accessClauses, List.countP_append, filters]
    cases a.seek <;> simp [Clause.isSeek]
  cases op with
  | insert values => rw [Operation.clauses, sets]; exact Nat.zero_le _
  | update assignments a =>
      rw [Operation.clauses, List.countP_append, sets, Nat.zero_add]
      exact access a
  | delete a => exact access a
  | select projection asOf a =>
      rw [Operation.clauses, List.countP_cons, List.countP_append]
      have hs := access a
      cases asOf <;> simpa [Clause.isSeek] using hs

/-! ## Sorting clauses by their kind -/

theorem mem_accessClauses {c : Clause} (h : c ∈ Operation.accessClauses a) :
    (∃ key, c = .seek key) ∨ ∃ f, c = .filter f := by
  rcases List.mem_append.mp h with hs | hf
  · obtain ⟨key, -, rfl⟩ := Option.map_eq_some_iff.mp (Option.mem_toList.mp hs)
    exact Or.inl ⟨key, rfl⟩
  · obtain ⟨f, -, rfl⟩ := List.mem_map.mp hf
    exact Or.inr ⟨f, rfl⟩

theorem setsOf_map {ss : List (Nat × Operand)} :
    setsOf (ss.map fun s => Clause.set s.1 s.2) = ss := by
  unfold setsOf
  rw [List.filterMap_map]
  exact List.filterMap_some

theorem setsOf_append {ss : List (Nat × Operand)} :
    setsOf (ss.map (fun s => Clause.set s.1 s.2) ++ Operation.accessClauses a) = ss := by
  have access : setsOf (Operation.accessClauses a) = [] := by
    unfold setsOf Operation.accessClauses
    rw [List.filterMap_eq_nil_iff]
    intro c hc
    rcases mem_accessClauses hc with ⟨key, rfl⟩ | ⟨f, rfl⟩ <;> rfl
  rw [setsOf, List.filterMap_append]
  change setsOf _ ++ setsOf _ = ss
  rw [access, setsOf_map, List.append_nil]

theorem accessOf_accessClauses : accessOf (Operation.accessClauses a) = a := by
  obtain ⟨seek, filters⟩ := a
  have sorted : accessOf (filters.map Clause.filter) = ⟨none, filters⟩ := by
    unfold accessOf
    rw [List.findSome?_eq_none_iff.mpr ?_, List.filterMap_map]
    · congr 1
      exact List.filterMap_some
    · intro c hc
      obtain ⟨f, -, rfl⟩ := List.mem_map.mp hc
      rfl
  cases seek with
  | none => exact sorted
  | some key =>
      change (⟨some key, (accessOf (filters.map Clause.filter)).filters⟩ : Access) = _
      rw [sorted]

/-- The clauses of an access give it back, after clauses that say nothing about rows. -/
theorem accessOf_append (h : ∀ c ∈ cs, c.isSeek = false ∧ ∀ f, c ≠ .filter f) :
    accessOf (cs ++ Operation.accessClauses a) = a := by
  have front : accessOf (cs ++ Operation.accessClauses a) =
      accessOf (Operation.accessClauses a) := by
    unfold accessOf
    rw [List.findSome?_append, List.filterMap_append, List.findSome?_eq_none_iff.mpr ?_,
      List.filterMap_eq_nil_iff.mpr ?_]
    · rfl
    · intro c hc
      cases c with
      | filter f => exact absurd rfl ((h _ hc).2 f)
      | _ => rfl
    · intro c hc
      cases c with
      | seek key => cases (h _ hc).1
      | _ => rfl
  rw [front, accessOf_accessClauses]

theorem projectionOf_clauses {projection : List Nat} {asOf : Option Operand} :
    projectionOf (Operation.select projection asOf a).clauses = some projection := by
  unfold projectionOf Operation.clauses
  rw [List.reverse_cons, List.findSome?_append, List.findSome?_eq_none_iff.mpr ?_]
  · rfl
  · intro c hc
    rcases List.mem_append.mp (List.mem_reverse.mp hc) with ho | ha
    · obtain ⟨o, -, rfl⟩ := Option.map_eq_some_iff.mp (Option.mem_toList.mp ho)
      rfl
    · rcases mem_accessClauses ha with ⟨key, rfl⟩ | ⟨f, rfl⟩ <;> rfl

theorem asOfOf_clauses {projection : List Nat} {asOf : Option Operand} :
    asOfOf (Operation.select projection asOf a).clauses = asOf := by
  unfold asOfOf Operation.clauses
  rw [List.reverse_cons, List.reverse_append, List.append_assoc, List.findSome?_append,
    List.findSome?_eq_none_iff.mpr ?_]
  · cases asOf <;> rfl
  · intro c hc
    rcases mem_accessClauses (List.mem_reverse.mp hc) with ⟨key, rfl⟩ | ⟨f, rfl⟩ <;> rfl

theorem keyword_mem_of_mem_accessClauses {c : Clause} (h : c ∈ Operation.accessClauses a) :
    c.keyword = "seek" ∨ c.keyword = "filter" := by
  rcases mem_accessClauses h with ⟨key, rfl⟩ | ⟨f, rfl⟩
  · exact Or.inl rfl
  · exact Or.inr rfl

/-- An operation has clauses of the kinds that its keyword takes. -/
theorem exists_allowedClauses : ∃ allowed, allowedClauses op.keyword = some allowed ∧
    ∀ c ∈ op.clauses, c.keyword ∈ allowed := by
  cases op with
  | insert values =>
      refine ⟨_, rfl, ?_⟩
      intro c hc
      obtain ⟨s, -, rfl⟩ := List.mem_map.mp hc
      exact List.mem_cons_self
  | update assignments a =>
      refine ⟨_, rfl, ?_⟩
      intro c hc
      rcases List.mem_append.mp hc with hs | ha
      · obtain ⟨s, -, rfl⟩ := List.mem_map.mp hs
        exact List.mem_cons_self
      · rcases keyword_mem_of_mem_accessClauses ha with hk | hk <;> simp [hk]
  | delete a =>
      refine ⟨_, rfl, ?_⟩
      intro c hc
      rcases keyword_mem_of_mem_accessClauses hc with hk | hk <;> simp [hk]
  | select projection asOf a =>
      refine ⟨_, rfl, ?_⟩
      intro c hc
      rcases List.mem_cons.mp hc with rfl | hc
      · exact List.mem_cons_self
      · rcases List.mem_append.mp hc with hs | ha
        · obtain ⟨o, -, rfl⟩ := Option.map_eq_some_iff.mp (Option.mem_toList.mp hs)
          simp [Clause.keyword]
        · rcases keyword_mem_of_mem_accessClauses ha with hk | hk <;> simp [hk]

/-- **The keyword and the clauses of an operation make it again.** -/
theorem operationOf_placed {number first : Nat} (h : op.WellFormed) :
    operationOf op.keyword number (placed first op.clauses) = .ok op := by
  obtain ⟨allowed, ha, hk⟩ := @exists_allowedClauses op
  have fits : (placed first op.clauses).find? (fun c => !allowed.contains c.1.keyword) = none := by
    rw [List.find?_eq_none]
    intro c hc
    have mem : c.1 ∈ op.clauses := by
      rw [← @map_placed op.clauses first]
      exact List.mem_map_of_mem hc
    simpa using hk c.1 mem
  unfold operationOf
  rw [ha]
  dsimp only
  rw [fits]
  dsimp only
  rw [map_placed]
  cases op with
  | insert values =>
      change Except.ok (Operation.insert (setsOf (values.map fun s => Clause.set s.1 s.2))) = _
      rw [setsOf_map]
  | update assignments a =>
      have some : assignments.isEmpty = false :=
        List.isEmpty_eq_false_iff.mpr (h.assigns assignments a rfl)
      have sets : setsOf (Operation.update assignments a).clauses = assignments := setsOf_append
      have access : accessOf (Operation.update assignments a).clauses = a := by
        apply accessOf_append
        intro c hc
        obtain ⟨s, -, rfl⟩ := List.mem_map.mp hc
        exact ⟨rfl, by simp⟩
      change (if (setsOf (Operation.update assignments a).clauses).isEmpty then Except.error _ else
        Except.ok (Operation.update (setsOf (Operation.update assignments a).clauses)
          (accessOf (Operation.update assignments a).clauses))) = _
      rw [sets, access, some]
      rfl
  | delete a =>
      change Except.ok (Operation.delete (accessOf (Operation.accessClauses a))) = _
      rw [accessOf_accessClauses]
  | select projection asOf a =>
      have access : accessOf (Operation.select projection asOf a).clauses = a := by
        rw [Operation.clauses, ← List.cons_append]
        apply accessOf_append
        intro c hc
        rcases List.mem_cons.mp hc with rfl | hc
        · exact ⟨rfl, by simp⟩
        · obtain ⟨o, -, rfl⟩ := Option.map_eq_some_iff.mp (Option.mem_toList.mp hc)
          exact ⟨rfl, by simp⟩
      rw [projectionOf_clauses, asOfOf_clauses, access]
      rfl

end Assembly

end TemporalDB
