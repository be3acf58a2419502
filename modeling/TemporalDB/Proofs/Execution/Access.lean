import TemporalDB.Execution
import TemporalDB.Proofs.Table.Identity

/-!
# The rows that an access finds

An access asks for the rows with a key, if it has one, that meet all of its filters. `Meets` says so
of one row, and `matchingRows_eq_ok_iff` that running the access finds just those rows among the
ones that the table shows, in the order of their keys, and fails only if a column is not there, the
key has another length or an operand has no value.
-/

namespace TemporalDB

open Execution

/-- Whether two values are in the order that a comparison asks for. -/
def Comparator.Relates : Comparator → Value → Value → Prop
  | .eq, a, b => a = b
  | .notEq, a, b => a ≠ b
  | .lt, a, b => compare a b = .lt
  | .ltEq, a, b => compare a b = .lt ∨ a = b
  | .gt, a, b => compare b a = .lt
  | .gtEq, a, b => compare b a = .lt ∨ a = b

/-- A row meets a filter if its column and the operand have values in the order asked for. Null is
in no order with anything. -/
def Filter.Meets (params : List String) (f : Filter) (row : Row) : Prop :=
  ∃ v w, bindValue params f.operand = .ok v ∧ row[f.column]? = some w ∧
    w ≠ .null ∧ v ≠ .null ∧ f.op.Relates w v

/-- A row meets an access if it has the key that is sought, if one is, and meets every filter. -/
structure Access.Meets (r : Relation) (params : List String) (a : Access) (row : Row) : Prop where
  key : ∀ seek ∈ a.seek, List.Forall₂ (fun o v => bindValue params o = .ok v) seek (r.keyOf row)
  filters : ∀ f ∈ a.filters, f.Meets params row

/-- The rows of a table that meet an access, each identity once, in the order of their keys. -/
structure Access.Finds (t : Table) (params : List String) (a : Access) (asOf : Option Instant)
    (found : List Row) : Prop where
  mem_iff : ∀ row, row ∈ found ↔ (∃ k, t.get? k asOf = some row) ∧ a.Meets t.relation params row
  ascending : (found.map t.relation.keyOf).Pairwise fun a b => compare a b = .lt

/-- What an access needs to be run: columns of the relation, a key of its length, and values. -/
structure Access.Runs (r : Relation) (params : List String) (a : Access) : Prop where
  key : ∀ seek ∈ a.seek, seek.length = r.primaryKey.length ∧
    ∀ o ∈ seek, ∃ v, bindValue params o = .ok v
  filters : ∀ f ∈ a.filters, f.column < r.arity ∧ ∃ v, bindValue params f.operand = .ok v

namespace Access.Finds

variable {t : Table} {params : List String} {a : Access} {asOf : Option Instant}
  {found found' : List Row}

theorem nodup (h : a.Finds t params asOf found) : (found.map t.relation.keyOf).Nodup :=
  OrderedMap.nodup_of_ascending h.ascending

/-- The rows that an access finds are settled by which they are. -/
theorem unique (h : a.Finds t params asOf found) (h' : a.Finds t params asOf found') :
    found = found' := by
  have same : ∀ row, row ∈ found ↔ row ∈ found' := fun row => by rw [h.mem_iff, h'.mem_iff]
  have perm := (List.perm_ext_iff_of_nodup h.nodup.of_map h'.nodup.of_map).mpr same
  -- the order of the keys is strict, so it leaves no choice
  refine perm.eq_of_pairwise ?_ (List.pairwise_map.mp h.ascending)
    (List.pairwise_map.mp h'.ascending)
  intro x y _ _ before after
  exact absurd after (Std.OrientedCmp.not_lt_of_lt before)

end Access.Finds

namespace Execution

variable {t : Table} {params : List String} {a : Access} {asOf : Option Instant}
  {found : List Row} {f : Filter} {c : Test} {row : Row}

/-! ## Comparisons -/

theorem accepts_compare_iff {op : Comparator} {v w : Value} :
    op.accepts (compare v w) = true ↔ op.Relates v w := by
  have swap : compare w v = .lt ↔ compare v w = .gt := Std.OrientedCmp.gt_iff_lt.symm
  have equal : v = w ↔ compare v w = .eq := Std.LawfulEqCmp.compare_eq_iff_eq.symm
  cases op <;> simp only [Comparator.accepts, Comparator.Relates, swap, equal, ne_eq] <;>
    cases compare v w <;> decide

theorem compares_iff {op : Comparator} {v w : Value} :
    compares v op w = true ↔ v ≠ .null ∧ w ≠ .null ∧ op.Relates v w := by
  unfold compares
  rw [Bool.and_eq_true, Bool.and_eq_true, decide_eq_true_eq, decide_eq_true_eq,
    accepts_compare_iff, and_assoc]

/-! ## Filters -/

theorem bindFilter_eq_ok_iff : bindFilter t params f = .ok c ↔
    f.column < t.relation.arity ∧
      ∃ v, bindValue params f.operand = .ok v ∧ c = ⟨f.column, f.op, v⟩ := by
  unfold bindFilter
  split
  · rename_i beyond
    simp [Nat.not_lt.mpr beyond]
  · rename_i inside
    rw [bind_eq_ok_iff]
    simp only [Nat.not_le.mp inside, true_and, Except.ok.injEq, eq_comm]

/-- The test that a filter becomes is whether a row meets it. -/
theorem holds_iff (h : bindFilter t params f = .ok c) :
    c.holds row = true ↔ f.Meets params row := by
  obtain ⟨-, v, bound, rfl⟩ := bindFilter_eq_ok_iff.mp h
  rw [Test.holds_eq]
  unfold Filter.Meets
  cases there : row[f.column]? with
  | none => simp
  | some w =>
      simp only [Option.any_some, compares_iff, Option.some.injEq]
      constructor
      · intro meets
        exact ⟨v, w, bound, rfl, meets⟩
      · rintro ⟨v', w', bound', rfl, meets⟩
        obtain rfl := Except.ok.inj (bound.symm.trans bound')
        exact meets

theorem all_holds_iff {filters : List Filter} {tests : List Test}
    (h : List.Forall₂ (fun f c => bindFilter t params f = .ok c) filters tests) :
    (tests.all fun c => c.holds row) = true ↔ ∀ f ∈ filters, f.Meets params row := by
  induction h with
  | nil => simp
  | cons head _ ih => rw [List.all_cons, Bool.and_eq_true, ih, holds_iff head, List.forall_mem_cons]

/-! ## Rows -/

theorem mem_values_rowsAt_iff :
    row ∈ (t.rowsAt asOf).values ↔ ∃ k, t.get? k asOf = some row := by
  simp only [Table.get?_eq_find?_rowsAt, OrderedMap.find?_eq_some_iff]
  simp [OrderedMap.values]

/-- The candidates are the rows that the table shows, or the one of them with the key. -/
theorem candidates_eq_ok {seek : Option (List Operand)} {rows : List Row}
    (owns : t.relation.Owns (t.rowsAt asOf)) (h : candidates t params asOf seek = .ok rows) :
    rows.Sublist (t.rowsAt asOf).values ∧ ∀ row, row ∈ rows ↔ row ∈ (t.rowsAt asOf).values ∧
      ∀ operands ∈ seek,
        List.Forall₂ (fun o v => bindValue params o = .ok v) operands (t.relation.keyOf row) := by
  unfold candidates at h
  cases seek with
  | none =>
      obtain rfl := Except.ok.inj h
      rw [Table.scan_eq_values_rowsAt]
      exact ⟨List.Sublist.refl _, by simp⟩
  | some operands =>
      dsimp only at h
      split at h
      · obtain ⟨key, bound, h⟩ := bind_eq_ok_iff.mp h
        obtain rfl := Except.ok.inj h
        have sought : ∀ row, List.Forall₂ (fun o v => bindValue params o = .ok v) operands
            (t.relation.keyOf row) ↔ t.relation.keyOf row = key := by
          intro row
          rw [← mapM_eq_ok_iff, bound, Except.ok.injEq, eq_comm]
        -- what a look-up finds is what a scan leaves of the key
        rw [Table.get?_eq_find?_rowsAt, ← owns.filter_values]
        refine ⟨List.filter_sublist, fun row => ?_⟩
        simp [sought]
      · cases h

theorem exists_candidates (asOf : Option Instant) {seek : Option (List Operand)}
    (h : ∀ operands ∈ seek, operands.length = t.relation.primaryKey.length ∧
      ∀ o ∈ operands, ∃ v, bindValue params o = .ok v) :
    ∃ rows, candidates t params asOf seek = .ok rows := by
  cases seek with
  | none => exact ⟨_, rfl⟩
  | some operands =>
      obtain ⟨length, values⟩ := h operands rfl
      obtain ⟨key, bound⟩ := exists_mapM_eq_ok_iff.mpr values
      unfold candidates
      dsimp only
      rw [if_pos length, bound]
      exact ⟨_, rfl⟩

theorem runs_of_candidates {seek : Option (List Operand)} {rows : List Row}
    (h : candidates t params asOf seek = .ok rows) :
    ∀ operands ∈ seek, operands.length = t.relation.primaryKey.length ∧
      ∀ o ∈ operands, ∃ v, bindValue params o = .ok v := by
  rintro operands rfl
  unfold candidates at h
  dsimp only at h
  split at h
  · rename_i length
    obtain ⟨key, bound, -⟩ := bind_eq_ok_iff.mp h
    exact ⟨length, exists_mapM_eq_ok_iff.mp ⟨key, bound⟩⟩
  · cases h

theorem finds_of_matchingRows (owns : t.relation.Owns (t.rowsAt asOf))
    (h : matchingRows t a params asOf = .ok found) : a.Finds t params asOf found := by
  rw [matchingRows_eq] at h
  obtain ⟨tests, bound, h⟩ := bind_eq_ok_iff.mp h
  obtain ⟨rows, among, h⟩ := bind_eq_ok_iff.mp h
  obtain rfl := Except.ok.inj h
  obtain ⟨sublist, mem⟩ := candidates_eq_ok owns among
  refine ⟨fun row => ?_, ?_⟩
  · rw [List.mem_filter, all_holds_iff (mapM_eq_ok_iff.mp bound), mem, mem_values_rowsAt_iff,
      and_assoc]
    exact and_congr_right fun _ => ⟨fun h => ⟨h.1, h.2⟩, fun h => ⟨h.key, h.filters⟩⟩
  · exact owns.ascending.sublist ((List.filter_sublist.trans sublist).map _)

theorem exists_matchingRows_iff (asOf : Option Instant) :
    (∃ found, matchingRows t a params asOf = .ok found) ↔ a.Runs t.relation params := by
  constructor
  · rintro ⟨found, h⟩
    rw [matchingRows_eq] at h
    obtain ⟨tests, bound, h⟩ := bind_eq_ok_iff.mp h
    obtain ⟨rows, among, -⟩ := bind_eq_ok_iff.mp h
    refine ⟨runs_of_candidates among, fun f hf => ?_⟩
    obtain ⟨c, hc⟩ := exists_mapM_eq_ok_iff.mp ⟨tests, bound⟩ f hf
    obtain ⟨inside, v, hv, -⟩ := bindFilter_eq_ok_iff.mp hc
    exact ⟨inside, v, hv⟩
  · intro runs
    have filters : ∀ f ∈ a.filters, ∃ c, bindFilter t params f = .ok c := by
      intro f hf
      obtain ⟨inside, v, hv⟩ := runs.filters f hf
      exact ⟨_, bindFilter_eq_ok_iff.mpr ⟨inside, v, hv, rfl⟩⟩
    obtain ⟨tests, bound⟩ := exists_mapM_eq_ok_iff.mpr filters
    obtain ⟨rows, among⟩ := exists_candidates asOf runs.key
    rw [matchingRows_eq, bound, ok_bind, among]
    exact ⟨_, rfl⟩

/-- **Running an access finds the rows that meet it**, and fails only if the access cannot be
run. -/
theorem matchingRows_eq_ok_iff (owns : t.relation.Owns (t.rowsAt asOf)) :
    matchingRows t a params asOf = .ok found ↔
      a.Runs t.relation params ∧ a.Finds t params asOf found := by
  constructor
  · intro h
    exact ⟨(exists_matchingRows_iff asOf).mp ⟨found, h⟩, finds_of_matchingRows owns h⟩
  · rintro ⟨runs, finds⟩
    obtain ⟨found', h⟩ := (exists_matchingRows_iff asOf).mpr runs
    rw [h, (finds_of_matchingRows owns h).unique finds]

/-- Accesses that run alike and that the same rows meet find the same rows. -/
theorem matchingRows_congr {b : Access} (owns : t.relation.Owns (t.rowsAt asOf))
    (runs : a.Runs t.relation params ↔ b.Runs t.relation params)
    (meets : ∀ row, a.Meets t.relation params row ↔ b.Meets t.relation params row) :
    (matchingRows t a params asOf).toOption = (matchingRows t b params asOf).toOption := by
  have finds : ∀ found, a.Finds t params asOf found ↔ b.Finds t params asOf found := by
    intro found
    constructor
    · intro h
      exact ⟨fun row => by rw [h.mem_iff, meets], h.ascending⟩
    · intro h
      exact ⟨fun row => by rw [h.mem_iff, meets], h.ascending⟩
  apply Option.ext
  intro found
  rw [toOption_eq_some_iff, toOption_eq_some_iff, matchingRows_eq_ok_iff owns,
    matchingRows_eq_ok_iff owns, runs, finds]

end Execution

end TemporalDB
