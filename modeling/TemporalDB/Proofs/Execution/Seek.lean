import TemporalDB.Proofs.Execution.Access
import TemporalDB.Proofs.Plan
import TemporalDB.Proofs.Value

/-!
# Seeking agrees with scanning

A condition that compares every column of the key by equality is planned as a seek, with the other
comparisons as filters. The first comparison of each key column makes up the key that is sought, so
a row has that key just if it meets these comparisons: their values are never null, and the key of
a row is what stands in the key columns. Main statement: `matchingRows_accessOf`.
-/

namespace TemporalDB

open Execution

namespace Plan

variable {r : Relation} {condition : List Comparison} {a : Access} {filters others : List Filter}
  {key places : List Nat} {seek : List Operand} {params : List String} {row : Row}

/-! ## What a plan looks for -/

theorem ne_null_of_operandOf {type : ScalarType} {name : String} {e : Expr} {o : Operand}
    {v : Value} (h : operandOf type name e = .ok o) (bound : bindValue params o = .ok v) :
    v ≠ .null := by
  cases e with
  | param i =>
      cases h
      unfold bindValue at bound
      dsimp only at bound
      split at bound
      · cases bound
      · rename_i s there
        cases read : type.readValue s with
        | error cause => rw [read] at bound; cases bound
        | ok w =>
            rw [read] at bound
            cases bound
            exact (ScalarType.conforms_of_readValue read).2
  | literal l =>
      rw [operandOf] at h
      cases read : type.readValue l.text with
      | error cause => rw [read] at h; cases h
      | ok w =>
          rw [read] at h
          cases h
          cases bound
          exact (ScalarType.conforms_of_readValue read).2

/-! ## Rows that meet the plan -/

/-- A row has the key that is sought and meets the other filters just if it meets them all. -/
theorem Fixes.meets_iff (h : Fixes r.primaryKey filters seek others)
    (values : ∀ f ∈ filters, ∀ v, bindValue params f.operand = .ok v → v ≠ .null) :
    Access.Meets r params ⟨some seek, others⟩ row ↔ Access.Meets r params ⟨none, filters⟩ row := by
  have sought : List.Forall₂ (fun o v => bindValue params o = .ok v) seek (r.keyOf row) ↔
      List.Forall₂ (fun k o => bindValue params o = .ok ((row[k]?).getD .null))
        r.primaryKey seek := by
    unfold Relation.keyOf
    rw [List.forall₂_map_right_iff]
    exact ⟨List.Forall₂.flip, List.Forall₂.flip⟩
  constructor
  · rintro ⟨keyed, meets⟩
    refine ⟨by simp, fun f hf => ?_⟩
    rcases h.covered f hf with left | ⟨⟨k, o⟩, he, rfl⟩
    · exact meets f left
    · have bound := (List.forall₂_iff_zip.mp (sought.mp (keyed seek rfl))).2 he
      -- the key reads null where the row has no column, but no planned value is null
      have some := values _ hf _ bound
      cases there : row[k]? with
      | none => simp [there] at some
      | some w =>
          rw [there, Option.getD_some] at bound some
          exact ⟨w, w, bound, there, some, some, rfl⟩
  · rintro ⟨-, meets⟩
    refine ⟨?_, fun f hf => meets f (h.others_subset hf)⟩
    rintro _ ⟨⟩
    refine sought.mpr (h.fixed.imp fun k o hf => ?_)
    obtain ⟨v, w, bound, there, -, -, rfl⟩ := meets _ hf
    rw [there]
    exact bound

/-- A key and the other filters have values just if all filters have. -/
theorem Fixes.runs_iff (h : Fixes r.primaryKey filters seek others)
    (columns : ∀ f ∈ filters, f.column < r.arity) :
    Access.Runs r params ⟨some seek, others⟩ ↔ Access.Runs r params ⟨none, filters⟩ := by
  constructor
  · rintro ⟨keyed, bound⟩
    refine ⟨by simp, fun f hf => ⟨columns f hf, ?_⟩⟩
    rcases h.covered f hf with left | ⟨⟨k, o⟩, he, rfl⟩
    · exact (bound f left).2
    · exact (keyed seek rfl).2 o (List.of_mem_zip he).2
  · rintro ⟨-, bound⟩
    refine ⟨?_, fun f hf => bound f (h.others_subset hf)⟩
    rintro _ ⟨⟩
    have values : List.Forall₂ (fun o _ => (∃ v, bindValue params o = .ok v) ∧ True) seek
        r.primaryKey := (h.fixed.imp fun k o hf => ⟨(bound _ hf).2, trivial⟩).flip
    exact ⟨h.fixed.length_eq.symm, ((List.forall₂_and_left _ _).mp values).1⟩

/-- A planned condition has columns of the relation, and values that are not null. -/
theorem filter_of_planned (params : List String)
    (h : condition.mapM (filterOf r) = .ok filters) : ∀ f ∈ filters,
    f.column < r.arity ∧ ∀ v, bindValue params f.operand = .ok v → v ≠ .null := by
  intro f hf
  obtain ⟨c, -, planned⟩ := mem_of_mapM_eq_ok h f hf
  obtain ⟨⟨i, column⟩, there, planned⟩ := bind_eq_ok_iff.mp planned
  obtain ⟨o, operand, planned⟩ := bind_eq_ok_iff.mp planned
  cases planned
  exact ⟨(columnOf_eq_ok there).1, fun v bound => ne_null_of_operandOf operand bound⟩

end Plan

namespace Execution

/-- **Seeking agrees with scanning.** On every reachable table, with all parameters, at present and
as of every instant, a planned condition finds the rows that all of its comparisons as filters find
in a scan, in the same order, and the one fails just if the other does. -/
theorem matchingRows_accessOf {r : Relation} {condition : List Comparison} {a : Access}
    (planned : Plan.accessOf r condition = .ok a) :
    ∃ filters, condition.mapM (Plan.filterOf r) = .ok filters ∧
      ∀ ws params asOf,
        (matchingRows ((Table.new r).run ws) a params asOf).toOption =
          (matchingRows ((Table.new r).run ws) ⟨none, filters⟩ params asOf).toOption := by
  obtain ⟨filters, scanned, rfl | ⟨seek, others, rfl, fixes⟩⟩ := Plan.accessOf_cases planned
  · exact ⟨filters, scanned, fun _ _ _ => rfl⟩
  refine ⟨filters, scanned, fun ws params asOf => ?_⟩
  have relation : ((Table.new r).run ws).relation = r :=
    (Table.changesOnly_run (Table.new r) ws).relation
  have owns := Table.owns_run r ws asOf
  have filters_planned := Plan.filter_of_planned params scanned
  generalize (Table.new r).run ws = t at relation owns ⊢
  subst relation
  apply matchingRows_congr owns
  · exact fixes.runs_iff fun f hf => (filters_planned f hf).1
  · exact fun row => fixes.meets_iff fun f hf => (filters_planned f hf).2

/-- A temporal relation of districts, which are numbered within their warehouses. -/
def district : Relation :=
  ⟨"district", [⟨"d_w_id", .integer, true⟩, ⟨"d_id", .integer, true⟩,
    ⟨"d_name", .varchar 10, false⟩], [1, 0], true⟩

/-- `D_ID = ? AND d_name <> 'x' AND d_w_id = 1 AND d_id = 2`. -/
def numbered : List Comparison :=
  [⟨"D_ID", .eq, .param 0⟩, ⟨"d_name", .notEq, .literal (.string "x")⟩,
    ⟨"d_w_id", .eq, .literal (.number "1")⟩, ⟨"d_id", .eq, .literal (.number "2")⟩]

/-- The condition as it is planned: the second comparison of `d_id` stays a filter. -/
def numberedAccess : Access :=
  ⟨some [.param 0 .integer, .const .integer (.integer 1)],
    [⟨2, .notEq, .const (.varchar 10) (.text "x")⟩, ⟨1, .eq, .const .integer (.integer 2)⟩]⟩

def districts : Table :=
  (Table.new district).run
    [.insert [.integer 1, .integer 2, .text "north"] .first,
      .insert [.integer 1, .integer 3, .null] .first,
      .update [.integer 2, .integer 1] [(2, .text "x")] Table.noon,
      .delete [.integer 2, .integer 1] .last]

theorem matchingRows_accessOf_district :
    Plan.accessOf district numbered = .ok numberedAccess ∧
    (matchingRows districts numberedAccess ["2"] (some .first)).toOption =
      some [[.integer 1, .integer 2, .text "north"]] ∧
    ∃ filters, numbered.mapM (Plan.filterOf district) = .ok filters ∧
      ∀ params asOf, (matchingRows districts numberedAccess params asOf).toOption =
        (matchingRows districts ⟨none, filters⟩ params asOf).toOption := by
  have planned : Plan.accessOf district numbered = .ok numberedAccess := by decide +kernel
  obtain ⟨filters, scanned, agree⟩ := matchingRows_accessOf planned
  exact ⟨planned, by decide +kernel, filters, scanned, agree _⟩

end Execution

end TemporalDB
