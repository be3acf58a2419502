import TemporalDB.Plan
import TemporalDB.Proofs.Assembly.Operation
import TemporalDB.Proofs.Outcome

/-!
# What planning gives

An operand of a planned operation has the type of a column and is a parameter only if its statement
has that parameter, the places that the operation names are places of columns, and a key that it
looks for has values. So the listing of a planned operation can be read.
-/

namespace TemporalDB

open Text

namespace Plan

variable {r : Relation} {type : ScalarType} {name : String} {e : Expr} {o : Operand} {i : Nat}
  {column : Column} {values : List Expr} {condition : List Comparison} {a : Access}
  {filters others : List Filter} {key places : List Nat} {seek : List Operand}

/-- An operand that stems from a value of a statement on a relation. -/
structure Stems (r : Relation) (values : List Expr) (o : Operand) : Prop where
  type : (∃ c ∈ r.columns, o.type = c.type) ∨ o.type = .timestamp
  param : ∀ i ∈ o.place?, .param i ∈ values

/-- A clause that a statement on a relation can have given. -/
structure Planned (r : Relation) (values : List Expr) (c : Assembly.Clause) : Prop where
  operands : ∀ o ∈ c.operands, Stems r values o
  columns : ∀ i ∈ c.columns, i < r.arity
  key : c ≠ .seek []

theorem Stems.mono {others : List Expr} (h : Stems r values o) (sub : values ⊆ others) :
    Stems r others o := ⟨h.type, fun i hi => sub (h.param i hi)⟩

theorem Planned.mono {others : List Expr} {c : Assembly.Clause} (h : Planned r values c)
    (sub : values ⊆ others) : Planned r others c :=
  ⟨fun o ho => (h.operands o ho).mono sub, h.columns, h.key⟩

/-! ## Names and values -/

theorem columnOf_eq_ok (h : columnOf r name = .ok (i, column)) :
    i < r.arity ∧ column ∈ r.columns := by
  unfold columnOf at h
  split at h
  · next hi hc =>
      cases h
      exact ⟨(List.findIdx?_eq_some_iff_findIdx_eq.mp hi).1, List.mem_of_find?_eq_some hc⟩
  · cases h

theorem operandOf_eq_ok (h : operandOf type name e = .ok o) :
    o.type = type ∧ ∀ i ∈ o.place?, e = .param i := by
  cases e with
  | param i =>
      cases h
      exact ⟨rfl, fun j hj => by cases hj; rfl⟩
  | literal l =>
      rw [operandOf] at h
      cases hv : type.readValue l.text with
      | error cause => rw [hv] at h; cases h
      | ok v =>
          rw [hv] at h
          cases h
          exact ⟨rfl, fun j hj => by cases hj⟩

theorem stems_of_operandOf (hc : column ∈ r.columns) (he : e ∈ values)
    (h : operandOf column.type name e = .ok o) : Stems r values o := by
  obtain ⟨ht, hp⟩ := operandOf_eq_ok h
  refine ⟨Or.inl ⟨column, hc, ht⟩, ?_⟩
  intro i hi
  rw [← hp i hi]
  exact he

/-! ## Assignments and values of an insertion -/

theorem assignmentsOf_eq_ok {as : List Assignment} {done out : List (Nat × Operand)}
    (h : assignmentsOf r done as = .ok out) : ∃ new, out = done ++ new ∧ new.length = as.length ∧
      ∀ s ∈ new, s.1 < r.arity ∧ Stems r (as.map (·.value)) s.2 := by
  induction as generalizing done with
  | nil =>
      cases h
      exact ⟨[], (List.append_nil _).symm, rfl, List.forall_mem_nil _⟩
  | cons a as ih =>
      rw [assignmentsOf, bind_eq_ok_iff] at h
      obtain ⟨⟨i, c⟩, hc, h⟩ := h
      dsimp only at h
      split_ifs at h
      obtain ⟨o, ho, h⟩ := bind_eq_ok_iff.mp h
      obtain ⟨new, rfl, len, good⟩ := ih h
      obtain ⟨hi, hmem⟩ := columnOf_eq_ok hc
      refine ⟨(i, o) :: new, List.append_assoc _ _ _, ?_, ?_⟩
      · rw [List.length_cons, List.length_cons, len]
      · rw [List.forall_mem_cons]
        refine ⟨⟨hi, stems_of_operandOf hmem List.mem_cons_self ho⟩, ?_⟩
        intro s hs
        exact ⟨(good s hs).1, (good s hs).2.mono (List.subset_cons_self _ _)⟩

theorem valuesOf_eq_ok {ts : List ((Nat × Column) × Expr)} {done out : List (Nat × Operand)}
    (targets : ∀ t ∈ ts, t.1.1 < r.arity ∧ t.1.2 ∈ r.columns) (h : valuesOf r done ts = .ok out) :
    ∃ new, out = done ++ new ∧ ∀ s ∈ new, s.1 < r.arity ∧ Stems r (ts.map (·.2)) s.2 := by
  induction ts generalizing done with
  | nil =>
      cases h
      exact ⟨[], (List.append_nil _).symm, List.forall_mem_nil _⟩
  | cons t ts ih =>
      obtain ⟨⟨i, c⟩, e⟩ := t
      rw [List.forall_mem_cons] at targets
      rw [valuesOf] at h
      split_ifs at h
      obtain ⟨o, ho, h⟩ := bind_eq_ok_iff.mp h
      obtain ⟨new, rfl, good⟩ := ih targets.2 h
      refine ⟨(i, o) :: new, List.append_assoc _ _ _, ?_⟩
      rw [List.forall_mem_cons]
      refine ⟨⟨targets.1.1, stems_of_operandOf targets.1.2 List.mem_cons_self ho⟩, ?_⟩
      intro s hs
      exact ⟨(good s hs).1, (good s hs).2.mono (List.subset_cons_self _ _)⟩

/-! ## Conditions -/

theorem filterOf_eq_ok {c : Comparison} {f : Filter} (h : filterOf r c = .ok f) :
    f.column < r.arity ∧ Stems r [c.value] f.operand := by
  unfold filterOf at h
  obtain ⟨⟨i, column⟩, hc, h⟩ := bind_eq_ok_iff.mp h
  obtain ⟨o, ho, h⟩ := bind_eq_ok_iff.mp h
  cases h
  obtain ⟨hi, hmem⟩ := columnOf_eq_ok hc
  exact ⟨hi, stems_of_operandOf hmem List.mem_cons_self ho⟩

/-! ## Keys that are sought -/

/-- A key that is sought and the filters left over, made of filters that fix all columns of the key:
each value of the key is that of an equality, and no filter is lost. -/
structure Fixes (key : List Nat) (filters : List Filter) (seek : List Operand)
    (others : List Filter) : Prop where
  fixed : List.Forall₂ (fun k o => (⟨k, .eq, o⟩ : Filter) ∈ filters) key seek
  others_subset : others ⊆ filters
  covered : ∀ f ∈ filters, f ∈ others ∨ ∃ e ∈ key.zip seek, f = ⟨e.1, .eq, e.2⟩

/-- The operands of the filters at the places that fix a key. -/
theorem fixed_of_pins (h : pins key filters = some places) :
    List.Forall₂ (fun k o => (⟨k, .eq, o⟩ : Filter) ∈ filters) key
        (places.filterMap fun i => filters[i]?.map (·.operand)) ∧
      ∀ i ∈ places, ∃ e ∈ key.zip (places.filterMap fun i => filters[i]?.map (·.operand)),
        filters[i]? = some ⟨e.1, .eq, e.2⟩ := by
  induction key generalizing places with
  | nil =>
      cases h
      exact ⟨.nil, List.forall_mem_nil _⟩
  | cons k key ih =>
      rw [pins, List.mapM_cons, Option.bind_eq_bind, Option.bind_eq_some_iff] at h
      obtain ⟨i, hi, h⟩ := h
      obtain ⟨rest, hrest, h⟩ := Option.bind_eq_some_iff.mp h
      cases h
      obtain ⟨fixed, covered⟩ := ih hrest
      obtain ⟨inside, fits, -⟩ := List.findIdx?_eq_some_iff_getElem.mp hi
      rw [Bool.and_eq_true, decide_eq_true_eq, decide_eq_true_eq] at fits
      have place : filters[i]? = some ⟨k, .eq, filters[i].operand⟩ := by
        rw [List.getElem?_eq_getElem inside, ← fits.1, ← fits.2]
      rw [List.filterMap_cons_some (by rw [place]; rfl)]
      refine ⟨.cons (List.mem_of_getElem? place) fixed, ?_⟩
      rw [List.forall_mem_cons]
      refine ⟨⟨(k, filters[i].operand), List.mem_cons_self, place⟩, fun j hj => ?_⟩
      obtain ⟨e, he, there⟩ := covered j hj
      exact ⟨e, List.mem_cons_of_mem _ he, there⟩

theorem fixes_of_pins (h : pins key filters = some places) :
    Fixes key filters (places.filterMap fun i => filters[i]?.map (·.operand))
      ((filters.zipIdx.filter fun (_, i) => !places.contains i).map (·.1)) := by
  obtain ⟨fixed, placed⟩ := fixed_of_pins h
  refine ⟨fixed, fun f hf => ?_, fun f hf => ?_⟩
  · obtain ⟨⟨g, i⟩, hg, rfl⟩ := List.mem_map.mp hf
    exact List.fst_mem_of_mem_zipIdx (List.mem_of_mem_filter hg)
  · obtain ⟨i, hi⟩ := List.mem_iff_getElem?.mp hf
    by_cases pinned : i ∈ places
    · obtain ⟨e, he, there⟩ := placed i pinned
      exact .inr ⟨e, he, Option.some.inj (hi.symm.trans there)⟩
    · refine .inl (List.mem_map.mpr ⟨(f, i), List.mem_filter.mpr ⟨?_, ?_⟩, rfl⟩)
      · exact List.mem_zipIdx_iff_getElem?.mpr hi
      · simpa using pinned

/-- A condition is planned as its comparisons, or as a key and the other comparisons. -/
theorem accessOf_cases (h : accessOf r condition = .ok a) :
    ∃ filters, condition.mapM (filterOf r) = .ok filters ∧
      (a = ⟨none, filters⟩ ∨
        ∃ seek others, a = ⟨some seek, others⟩ ∧ Fixes r.primaryKey filters seek others) := by
  obtain ⟨filters, planned, h⟩ := bind_eq_ok_iff.mp h
  refine ⟨filters, planned, ?_⟩
  dsimp only at h
  split at h
  · exact .inl (Except.ok.inj h).symm
  · split at h
    · exact .inl (Except.ok.inj h).symm
    · rename_i places pinned
      exact .inr ⟨_, _, (Except.ok.inj h).symm, fixes_of_pins pinned⟩

theorem primaryKey_ne_nil_of_accessOf (h : accessOf r condition = .ok ⟨some seek, others⟩) :
    r.primaryKey ≠ [] := by
  intro keyless
  obtain ⟨filters, -, h⟩ := bind_eq_ok_iff.mp h
  rw [keyless] at h
  cases h

theorem planned_access (sought : ∀ key ∈ a.seek, key ≠ [] ∧ ∀ o ∈ key, Stems r values o)
    (tested : ∀ f ∈ a.filters, f.column < r.arity ∧ Stems r values f.operand) :
    ∀ c ∈ Operation.accessClauses a, Planned r values c := by
  intro c hc
  rcases List.mem_append.mp hc with hs | hf
  · obtain ⟨key, hkey, rfl⟩ := Option.map_eq_some_iff.mp (Option.mem_toList.mp hs)
    obtain ⟨nonempty, stems⟩ := sought key hkey
    refine ⟨stems, List.forall_mem_nil _, ?_⟩
    rintro ⟨⟩
    exact nonempty rfl
  · obtain ⟨f, hmem, rfl⟩ := List.mem_map.mp hf
    obtain ⟨inside, stems⟩ := tested f hmem
    exact ⟨List.forall_mem_singleton.mpr stems, List.forall_mem_singleton.mpr inside, by simp⟩

theorem accessOf_eq_ok (h : accessOf r condition = .ok a) :
    ∀ c ∈ Operation.accessClauses a, Planned r (condition.map (·.value)) c := by
  obtain ⟨filters, planned, cases⟩ := accessOf_cases h
  have tested : ∀ f ∈ filters, f.column < r.arity ∧
      Stems r (condition.map (·.value)) f.operand := by
    intro f hmem
    obtain ⟨c, hc, hfc⟩ := mem_of_mapM_eq_ok planned f hmem
    obtain ⟨hi, hs⟩ := filterOf_eq_ok hfc
    exact ⟨hi, hs.mono (List.cons_subset.mpr ⟨List.mem_map_of_mem hc, List.nil_subset _⟩)⟩
  rcases cases with rfl | ⟨seek, others, rfl, fixes⟩
  · exact planned_access nofun tested
  · refine planned_access ?_ fun f hf => tested f (fixes.others_subset hf)
    rintro _ ⟨⟩
    have stems := fixes.fixed.flip.imp fun o k hf => And.intro (tested _ hf).2 hf
    refine ⟨?_, ((List.forall₂_and_left _ _).mp stems).1⟩
    rintro rfl
    exact primaryKey_ne_nil_of_accessOf h (List.forall₂_nil_right_iff.mp fixes.fixed)

/-! ## Operations -/

theorem planned_set {s : Nat × Operand} (hi : s.1 < r.arity) (ho : Stems r values s.2) :
    Planned r values (.set s.1 s.2) :=
  ⟨List.forall_mem_singleton.mpr ho, List.forall_mem_singleton.mpr hi, by simp⟩

def insertAt (r : Relation) (values : List Expr) (targets : List (Nat × Column)) :
    Except PlanError Operation :=
  if targets.length ≠ values.length then
    .error (.insertArity r.name targets.length values.length)
  else do
    let resolved ← valuesOf r [] (targets.zip values)
    match r.primaryKey.find? fun k => !targets.any fun t => t.1 = k with
    | some missing =>
      .error (.missingKeyColumn r.name ((r.columns[missing]?).elim "" (·.name)))
    | none => .ok (.insert resolved)

/-- The columns of an insertion are there, whether it names them or not. -/
theorem exists_insertAt {columns : Option (List String)} {op : Operation}
    (h : insertOf r columns values = .ok op) :
    ∃ targets, (∀ t ∈ targets, t.1 < r.arity ∧ t.2 ∈ r.columns) ∧
      insertAt r values targets = .ok op := by
  cases columns with
  | some names =>
      obtain ⟨targets, ht, h⟩ := bind_eq_ok_iff.mp h
      refine ⟨targets, ?_, h⟩
      intro t hmem
      obtain ⟨name, -, hn⟩ := mem_of_mapM_eq_ok ht t hmem
      exact columnOf_eq_ok hn
  | none =>
      refine ⟨_, ?_, h⟩
      intro t hmem
      obtain ⟨⟨c, i⟩, hc, rfl⟩ := List.mem_map.mp hmem
      have place : r.columns[i]? = some c := by
        rw [List.mem_zipIdx_iff_getElem?] at hc
        exact hc
      exact ⟨(List.getElem?_eq_some_iff.mp place).1, List.mem_of_getElem? place⟩

theorem insertOf_eq_ok {columns : Option (List String)} {op : Operation}
    (h : insertOf r columns values = .ok op) : ∀ c ∈ op.clauses, Planned r values c := by
  obtain ⟨targets, ht, h⟩ := exists_insertAt h
  unfold insertAt at h
  split_ifs at h
  obtain ⟨resolved, hr, h⟩ := bind_eq_ok_iff.mp h
  have sets : ∀ s ∈ resolved, s.1 < r.arity ∧ Stems r values s.2 := by
    obtain ⟨new, rfl, good⟩ := valuesOf_eq_ok (fun t hmem =>
      ht t.1 (List.of_mem_zip hmem).1) hr
    intro s hs
    obtain ⟨hi, stems⟩ := good s hs
    refine ⟨hi, stems.mono ?_⟩
    intro e he
    obtain ⟨t, hmem, rfl⟩ := List.mem_map.mp he
    exact (List.of_mem_zip hmem).2
  split at h
  · cases h
  · cases h
    intro c hc
    obtain ⟨s, hs, rfl⟩ := List.mem_map.mp hc
    exact planned_set (sets s hs).1 (sets s hs).2

/-- The clauses of a selection stem from its instant and its condition. -/
theorem select_eq_ok {places : List Nat} {asOf : Option Expr} {condition : List Comparison}
    {op : Operation} (hp : ∀ i ∈ places, i < r.arity)
    (h : (do
      let asOf ← asOf.mapM (operandOf .timestamp "AS OF")
      .ok (.select places asOf (← accessOf r condition))) = Except.ok op) :
    ∀ c ∈ op.clauses, Planned r (asOf.toList ++ condition.map (·.value)) c := by
  obtain ⟨instant, hi, h⟩ := bind_eq_ok_iff.mp h
  obtain ⟨access, ha, h⟩ := bind_eq_ok_iff.mp h
  cases h
  intro c hc
  rcases List.mem_cons.mp hc with rfl | hc
  · exact ⟨List.forall_mem_nil _, hp, by simp⟩
  rcases List.mem_append.mp hc with ho | hacc
  · obtain ⟨o, rfl, rfl⟩ := Option.map_eq_some_iff.mp (Option.mem_toList.mp ho)
    cases asOf with
    | none => cases hi
    | some e =>
        obtain ⟨o', ho', he⟩ := bind_eq_ok_iff.mp hi
        cases he
        obtain ⟨ht, hparam⟩ := operandOf_eq_ok ho'
        refine ⟨List.forall_mem_singleton.mpr ⟨Or.inr ht, ?_⟩, List.forall_mem_nil _, by simp⟩
        intro i hplace
        rw [← hparam i hplace]
        exact List.mem_cons_self
  · exact (accessOf_eq_ok ha c hacc).mono (List.subset_append_right _ _)

/-- **The clauses of a planned operation stem from its statement.** -/
theorem operationOf_eq_ok {statement : Statement} {op : Operation}
    (h : operationOf r statement = .ok op) :
    ∀ c ∈ op.clauses, Planned r statement.values c := by
  cases statement with
  | insert table columns values => exact insertOf_eq_ok h
  | update table assignments condition =>
      obtain ⟨sets, hs, h⟩ := bind_eq_ok_iff.mp h
      obtain ⟨access, ha, h⟩ := bind_eq_ok_iff.mp h
      cases h
      obtain ⟨new, rfl, -, good⟩ := assignmentsOf_eq_ok hs
      intro c hc
      -- the clauses of the assignments come first, then those of the access
      rcases List.mem_append.mp hc with hset | hacc
      · obtain ⟨s, hmem, rfl⟩ := List.mem_map.mp hset
        obtain ⟨hi, stems⟩ := good s hmem
        exact planned_set hi (stems.mono (List.subset_append_left _ _))
      · exact (accessOf_eq_ok ha c hacc).mono (List.subset_append_right _ _)
  | delete table condition =>
      obtain ⟨access, ha, h⟩ := bind_eq_ok_iff.mp h
      cases h
      exact accessOf_eq_ok ha
  | select table projection asOf condition =>
      cases projection with
      | all => exact select_eq_ok (fun i hi => List.mem_range.mp hi) h
      | columns names =>
          obtain ⟨places, hp, h⟩ := bind_eq_ok_iff.mp h
          refine select_eq_ok ?_ h
          intro i hi
          obtain ⟨name, -, hn⟩ := mem_of_mapM_eq_ok hp i hi
          obtain ⟨⟨j, c⟩, hc, hj⟩ := bind_eq_ok_iff.mp hn
          cases hj
          exact (columnOf_eq_ok hc).1

/-- An update that assigns something gives an operation that does. -/
theorem assignments_ne_nil {statement : Statement} {assignments : List (Nat × Operand)}
    {access : Access} (h : operationOf r statement = .ok (.update assignments access))
    (assigns : ∀ table sets condition, statement = .update table sets condition → sets ≠ []) :
    assignments ≠ [] := by
  cases statement with
  | insert table columns values =>
      obtain ⟨targets, -, h⟩ := exists_insertAt h
      unfold insertAt at h
      split_ifs at h
      obtain ⟨resolved, -, h⟩ := bind_eq_ok_iff.mp h
      split at h <;> cases h
  | update table sets condition =>
      obtain ⟨done, hs, h⟩ := bind_eq_ok_iff.mp h
      obtain ⟨found, -, h⟩ := bind_eq_ok_iff.mp h
      cases h
      obtain ⟨new, rfl, len, -⟩ := assignmentsOf_eq_ok hs
      rw [← List.length_pos_iff, len, List.length_pos_iff]
      exact assigns table sets condition rfl
  | delete table condition =>
      obtain ⟨found, -, h⟩ := bind_eq_ok_iff.mp h
      cases h
  | select table projection asOf condition =>
      cases projection <;>
        obtain ⟨places, -, h⟩ := bind_eq_ok_iff.mp h <;>
        obtain ⟨instant, -, h⟩ := bind_eq_ok_iff.mp h <;>
        obtain ⟨found, -, h⟩ := bind_eq_ok_iff.mp h <;>
        cases h

/-- **A planned operation is well formed**, if declarations give the types of its relation, the
relation has no more columns and the statement no more parameters than 64 bits count, and an update
assigns something. -/
theorem wellFormed_operationOf {statement : Statement} {op : Operation}
    (h : operationOf r statement = .ok op) (types : ∀ c ∈ r.columns, c.type.Admitted)
    (arity : r.arity ≤ bound64) (params : ∀ i, .param i ∈ statement.values → i < bound64)
    (assigns : ∀ table sets condition, statement = .update table sets condition → sets ≠ []) :
    op.WellFormed := by
  have planned := operationOf_eq_ok h
  have stems : ∀ o ∈ op.operands, Stems r statement.values o := by
    intro o ho
    obtain ⟨c, hc, hoc⟩ := List.mem_flatMap.mp ho
    exact (planned c hc).operands o hoc
  refine ⟨?_, ?_, ?_, ?_, ?_⟩
  · intro o ho
    rcases (stems o ho).type with ⟨c, hc, ht⟩ | ht
    · rw [ht]
      exact types c hc
    · rw [ht]
      exact ⟨"timestamp", [], by decide⟩
  · intro o ho i hi
    exact params i ((stems o ho).param i hi)
  · intro i hi
    obtain ⟨c, hc, hic⟩ := List.mem_flatMap.mp hi
    exact Nat.lt_of_lt_of_le ((planned c hc).columns i hic) arity
  · rintro assignments access rfl
    exact assignments_ne_nil h assigns
  · intro hk
    exact (planned _ hk).key rfl

end Plan

end TemporalDB
