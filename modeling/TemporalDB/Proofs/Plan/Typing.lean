import TemporalDB.Proofs.Execution.Seek
import TemporalDB.Proofs.Plan

/-!
# Types of planned operations

Every value of a statement stands for a column of its relation, or for an instant. A planned
operation is typed: what is put into a column or compared with it stands for a value of this column,
a key that is sought has a value for each column of the key, and no column of the key is assigned.
-/

namespace TemporalDB

open Text

/-- A value of a statement and the type that it is to have. -/
abbrev Slot := Expr × ScalarType

namespace Plan

variable {r : Relation} {slots others : List Slot} {type : ScalarType} {name : String} {e : Expr}
  {o : Operand} {i : Nat} {column : Column}

/-! ## What values stand for -/

def slotOf (r : Relation) (name : String) (value : Expr) : Option Slot :=
  (r.column? name).map fun c => (value, c.type)

/-- The values of a condition with the types of the columns that they are compared with. -/
def conditionSlots (r : Relation) (condition : List Comparison) : List Slot :=
  condition.filterMap fun c => slotOf r c.column c.value

def targetColumns (r : Relation) : Option (List String) → List Column
  | some names => names.filterMap r.column?
  | none => r.columns

/-- The values of a statement with the types of the columns that they stand for. -/
def slotsOf (r : Relation) : Statement → List Slot
  | .insert _ columns values => values.zip ((targetColumns r columns).map (·.type))
  | .update _ assignments condition =>
    assignments.filterMap (fun a => slotOf r a.column a.value) ++ conditionSlots r condition
  | .delete _ condition => conditionSlots r condition
  | .select _ _ asOf condition =>
    asOf.toList.map (fun e => (e, .timestamp)) ++ conditionSlots r condition

/-- An operand that a value of a type was planned as. -/
def Stands (slots : List Slot) (type : ScalarType) (o : Operand) : Prop :=
  ∃ e name, (e, type) ∈ slots ∧ operandOf type name e = .ok o

/-- An operand that stands for the column at a place. -/
def StandsAt (r : Relation) (slots : List Slot) (i : Nat) (o : Operand) : Prop :=
  ∃ c, r.columns[i]? = some c ∧ Stands slots c.type o

theorem StandsAt.mono (h : StandsAt r slots i o) (sub : slots ⊆ others) : StandsAt r others i o := by
  obtain ⟨c, hc, e, name, mem, ho⟩ := h
  exact ⟨c, hc, e, name, sub mem, ho⟩

namespace Stands

theorem type_eq (h : Stands slots type o) : o.type = type := by
  obtain ⟨e, name, -, ho⟩ := h
  exact (operandOf_eq_ok ho).1

theorem mem_of_place (h : Stands slots type o) (hi : i ∈ o.place?) : (.param i, type) ∈ slots := by
  obtain ⟨e, name, mem, ho⟩ := h
  rw [← (operandOf_eq_ok ho).2 i hi]
  exact mem

theorem exists_read {v : Value} (h : Stands slots type (.const type v)) :
    ∃ s, type.readValue s = .ok v := by
  obtain ⟨e, name, -, ho⟩ := h
  cases e with
  | param i => cases ho
  | literal l =>
      rw [operandOf] at ho
      cases hv : type.readValue l.text with
      | error cause =>
          rw [hv] at ho
          cases ho
      | ok w =>
          rw [hv] at ho
          cases ho
          exact ⟨l.text, hv⟩

end Stands

/-! ## Typed operations -/

/-- An access of which every operand stands for the column that it is compared with. A key that is
sought has a value for each column of the key. -/
structure TypedAccess (r : Relation) (slots : List Slot) (a : Access) : Prop where
  filters : ∀ f ∈ a.filters, StandsAt r slots f.column f.operand
  seek : ∀ key ∈ a.seek, List.Forall₂ (StandsAt r slots) r.primaryKey key

/-- An operation of which every operand stands for the column that it is put into or compared with,
and every place is one of a column. -/
inductive Typed (r : Relation) (slots : List Slot) : Operation → Prop
  | insert {values} (values_typed : ∀ s ∈ values, StandsAt r slots s.1 s.2) :
      Typed r slots (.insert values)
  | update {assignments access}
      (sets : ∀ s ∈ assignments, StandsAt r slots s.1 s.2 ∧ r.isKeyColumn s.1 = false)
      (rows : TypedAccess r slots access) : Typed r slots (.update assignments access)
  | delete {access} (rows : TypedAccess r slots access) : Typed r slots (.delete access)
  | select {projection asOf access} (places : ∀ i ∈ projection, i < r.arity)
      (instant : ∀ o ∈ asOf, Stands slots .timestamp o) (rows : TypedAccess r slots access) :
      Typed r slots (.select projection asOf access)

theorem TypedAccess.mono {a : Access} (h : TypedAccess r slots a) (sub : slots ⊆ others) :
    TypedAccess r others a where
  filters f hf := (h.filters f hf).mono sub
  seek key hk := (h.seek key hk).imp fun _ _ hs => hs.mono sub

/-! ## Planning gives typed operations -/

theorem columnOf_place (h : columnOf r name = .ok (i, column)) :
    r.columns[i]? = some column ∧ r.column? name = some column := by
  unfold columnOf at h
  split at h
  · next j c hi hc =>
      cases h
      unfold Relation.column? at hc
      unfold Relation.columnIndex? at hi
      rw [List.find?_eq_bind_findIdx?_getElem?, hi] at hc
      refine ⟨hc, ?_⟩
      rw [Relation.column?, List.find?_eq_bind_findIdx?_getElem?, hi]
      exact hc
  · cases h

theorem slotOf_eq_some (h : columnOf r name = .ok (i, column)) :
    slotOf r name e = some (e, column.type) := by
  rw [slotOf, (columnOf_place h).2]
  rfl

theorem typed_assignmentsOf {as : List Assignment} {done out : List (Nat × Operand)}
    (sub : as.filterMap (fun a => slotOf r a.column a.value) ⊆ slots)
    (before : ∀ s ∈ done, StandsAt r slots s.1 s.2 ∧ r.isKeyColumn s.1 = false)
    (h : assignmentsOf r done as = .ok out) :
    ∀ s ∈ out, StandsAt r slots s.1 s.2 ∧ r.isKeyColumn s.1 = false := by
  induction as generalizing done with
  | nil =>
      cases h
      exact before
  | cons a as ih =>
      rw [assignmentsOf, bind_eq_ok_iff] at h
      obtain ⟨⟨i, c⟩, hc, h⟩ := h
      dsimp only at h
      split_ifs at h with key twice
      obtain ⟨o, ho, h⟩ := bind_eq_ok_iff.mp h
      have slot : slotOf r a.column a.value = some (a.value, c.type) := slotOf_eq_some hc
      simp only [List.filterMap_cons, slot, List.cons_subset] at sub
      refine ih sub.2 ?_ h
      rw [List.forall_mem_append]
      refine ⟨before, List.forall_mem_singleton.mpr ⟨?_, Bool.eq_false_iff.mpr key⟩⟩
      exact ⟨c, (columnOf_place hc).1, a.value, c.name, sub.1, ho⟩

theorem typed_valuesOf {ts : List ((Nat × Column) × Expr)} {done out : List (Nat × Operand)}
    (targets : ∀ t ∈ ts, r.columns[t.1.1]? = some t.1.2 ∧ (t.2, t.1.2.type) ∈ slots)
    (before : ∀ s ∈ done, StandsAt r slots s.1 s.2) (h : valuesOf r done ts = .ok out) :
    ∀ s ∈ out, StandsAt r slots s.1 s.2 := by
  induction ts generalizing done with
  | nil =>
      cases h
      exact before
  | cons t ts ih =>
      obtain ⟨⟨i, c⟩, e⟩ := t
      rw [List.forall_mem_cons] at targets
      rw [valuesOf] at h
      split_ifs at h
      obtain ⟨o, ho, h⟩ := bind_eq_ok_iff.mp h
      refine ih targets.2 ?_ h
      rw [List.forall_mem_append]
      exact ⟨before, List.forall_mem_singleton.mpr ⟨c, targets.1.1, e, c.name, targets.1.2, ho⟩⟩

theorem typed_accessOf {condition : List Comparison} {a : Access}
    (h : accessOf r condition = .ok a) : TypedAccess r (conditionSlots r condition) a := by
  obtain ⟨filters, planned, cases⟩ := accessOf_cases h
  have typed : ∀ f ∈ filters, StandsAt r (conditionSlots r condition) f.column f.operand := by
    intro f hf
    obtain ⟨c, hc, made⟩ := mem_of_mapM_eq_ok planned f hf
    obtain ⟨⟨i, column⟩, there, made⟩ := bind_eq_ok_iff.mp made
    obtain ⟨o, ho, made⟩ := bind_eq_ok_iff.mp made
    cases made
    refine ⟨column, (columnOf_place there).1, c.value, column.name, ?_, ho⟩
    exact List.mem_filterMap.mpr ⟨c, hc, slotOf_eq_some there⟩
  -- The comparisons either stay filters, or some of them fix the key and the others stay.
  rcases cases with rfl | ⟨seek, others, rfl, fixes⟩
  · exact ⟨typed, by rintro _ ⟨⟩⟩
  · refine ⟨fun f hf => typed f (fixes.others_subset hf), ?_⟩
    rintro _ ⟨⟩
    exact fixes.fixed.imp fun k o hf => typed _ hf

theorem filterMap_column?_eq {names : List String} {targets : List (Nat × Column)}
    (h : names.mapM (columnOf r) = .ok targets) :
    names.filterMap r.column? = targets.map (·.2) := by
  have pairs := mapM_eq_ok_iff.mp h
  clear h
  induction pairs with
  | nil => rfl
  | cons hn _ ih => rw [List.filterMap_cons_some (columnOf_place hn).2, List.map_cons, ih]

/-- The columns of an insertion are the columns that it gives values to, at their places. -/
theorem exists_targets {columns : Option (List String)} {values : List Expr} {op : Operation}
    (h : insertOf r columns values = .ok op) :
    ∃ targets, (∀ t ∈ targets, r.columns[t.1]? = some t.2) ∧
      targets.map (·.2) = targetColumns r columns ∧ insertAt r values targets = .ok op := by
  cases columns with
  | some names =>
      obtain ⟨targets, ht, insertion⟩ := bind_eq_ok_iff.mp h
      refine ⟨targets, ?_, ?_, insertion⟩
      · intro t hmem
        obtain ⟨name, -, hn⟩ := mem_of_mapM_eq_ok ht t hmem
        exact (columnOf_place hn).1
      · exact (filterMap_column?_eq ht).symm
  | none =>
      refine ⟨_, ?_, ?_, h⟩
      · intro t hmem
        obtain ⟨⟨c, i⟩, hc, rfl⟩ := List.mem_map.mp hmem
        exact List.mem_zipIdx_iff_getElem?.mp hc
      · rw [List.map_map]
        exact List.zipIdx_map_fst 0 r.columns

theorem typed_insertOf {columns : Option (List String)} {values : List Expr} {op : Operation}
    (h : insertOf r columns values = .ok op) :
    Typed r (values.zip ((targetColumns r columns).map (·.type))) op := by
  obtain ⟨targets, places, named, h⟩ := exists_targets h
  unfold insertAt at h
  split_ifs at h
  obtain ⟨resolved, hr, h⟩ := bind_eq_ok_iff.mp h
  split at h
  · cases h
  · cases h
    refine .insert (typed_valuesOf ?_ (List.forall_mem_nil _) hr)
    intro t ht
    refine ⟨places t.1 (List.of_mem_zip ht).1, ?_⟩
    obtain ⟨k, hk⟩ := List.mem_iff_getElem?.mp ht
    obtain ⟨target, value⟩ := List.getElem?_zip_eq_some.mp hk
    apply List.mem_of_getElem? (i := k)
    rw [List.getElem?_zip_eq_some, ← named, List.map_map, List.getElem?_map, target]
    exact ⟨value, rfl⟩

theorem typed_select {places : List Nat} {asOf : Option Expr} {condition : List Comparison}
    {op : Operation} (hp : ∀ i ∈ places, i < r.arity)
    (h : (do
      let asOf ← asOf.mapM (operandOf .timestamp "AS OF")
      .ok (.select places asOf (← accessOf r condition))) = Except.ok op) :
    Typed r (asOf.toList.map (fun e => (e, .timestamp)) ++ conditionSlots r condition) op := by
  obtain ⟨instant, hi, h⟩ := bind_eq_ok_iff.mp h
  obtain ⟨access, ha, h⟩ := bind_eq_ok_iff.mp h
  cases h
  refine .select hp ?_ ((typed_accessOf ha).mono (List.subset_append_right _ _))
  cases asOf with
  | none =>
      cases hi
      rintro _ ⟨⟩
  | some e =>
      obtain ⟨o, ho, he⟩ := bind_eq_ok_iff.mp hi
      cases he
      rintro _ ⟨⟩
      exact ⟨e, "AS OF", List.mem_append_left _ List.mem_cons_self, ho⟩

/-- **A planned operation is typed.** -/
theorem typed_operationOf {statement : Statement} {op : Operation}
    (h : operationOf r statement = .ok op) : Typed r (slotsOf r statement) op := by
  cases statement with
  | insert table columns values => exact typed_insertOf h
  | update table assignments condition =>
      obtain ⟨sets, hs, h⟩ := bind_eq_ok_iff.mp h
      obtain ⟨access, ha, h⟩ := bind_eq_ok_iff.mp h
      cases h
      exact .update (typed_assignmentsOf (List.subset_append_left _ _) (List.forall_mem_nil _) hs)
        ((typed_accessOf ha).mono (List.subset_append_right _ _))
  | delete table condition =>
      obtain ⟨access, ha, h⟩ := bind_eq_ok_iff.mp h
      cases h
      exact .delete (typed_accessOf ha)
  | select table projection asOf condition =>
      cases projection with
      | all => exact typed_select (fun i hi => List.mem_range.mp hi) h
      | columns names =>
          obtain ⟨places, hp, h⟩ := bind_eq_ok_iff.mp h
          refine typed_select ?_ h
          intro i hi
          obtain ⟨name, -, hn⟩ := mem_of_mapM_eq_ok hp i hi
          obtain ⟨⟨j, c⟩, hc, hj⟩ := bind_eq_ok_iff.mp hn
          cases hj
          exact (columnOf_eq_ok hc).1

end Plan

end TemporalDB
