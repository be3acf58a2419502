import TemporalDB.Proofs.Execution.Reachable
import TemporalDB.Proofs.Execution.Seek

/-!
# What an operation does

An operation works on the set of rows that its access finds, all at once, though it goes through
them one by one. `Performs` says for each operation what it answers and what it makes of the table,
and `runQuery_performs` that a query on a reachable database, if it runs without error, does so to
the table that it names and touches no other.
-/

namespace TemporalDB

open Text Execution

/-- The row with the value of the last assignment in each column that has any. -/
def override (row : Row) (assignments : List (Nat × Value)) : Row :=
  row.mapIdx fun i v => (assignments.reverse.lookup i).getD v

/-- Columns with operands are those with the values that the operands have. -/
def Binds (params : List String) (operands : List (Nat × Operand))
    (assignments : List (Nat × Value)) : Prop :=
  List.Forall₂ (fun o a => a.1 = o.1 ∧ bindValue params o.2 = .ok a.2) operands assignments

namespace Table

/-- The present rows are what a function makes of those before, and it drops those of which it makes
nothing. -/
structure Rewrites (f : Row → Option Row) (t t' : Table) : Prop where
  get? : ∀ k, t'.get? k none = (t.get? k none).bind f
  scan : t'.scan none = (t.scan none).filterMap f

/-- The present rows are those before and one of a new identity. -/
structure Adds (row : Row) (t t' : Table) : Prop where
  fresh : t.get? (t.relation.keyOf row) none = none
  get? : ∀ k, t'.get? k none = if k = t.relation.keyOf row then some row else t.get? k none
  scan : (t'.scan none).Perm (row :: t.scan none)

end Table

/-- What an operation answers and which table it leaves. Rows are found, and operands read, on the
table before. -/
inductive Performs (params : List String) (t : Table) : Operation → QueryOutput → Table → Prop
  | insert {values assignments row t'} (bound : Binds params values assignments)
      (columns : ∀ a ∈ assignments, a.1 < t.relation.arity)
      (made : row = override (.replicate t.relation.arity .null) assignments)
      (adds : t.Adds row t') (frame : Table.ChangesOnly [t.relation.keyOf row] t t') :
      Performs params t (.insert values) (.affected 1) t'
  | update {operands assignments access found t'} (bound : Binds params operands assignments)
      (finds : access.Finds t params none found)
      (rewrites : t.Rewrites
        (fun row => some (if row ∈ found then override row assignments else row)) t')
      (frame : Table.ChangesOnly (found.map t.relation.keyOf) t t') :
      Performs params t (.update operands access) (.affected found.length) t'
  | delete {access found t'} (finds : access.Finds t params none found)
      (rewrites : t.Rewrites (fun row => if row ∈ found then none else some row) t')
      (frame : Table.ChangesOnly (found.map t.relation.keyOf) t t') :
      Performs params t (.delete access) (.affected found.length) t'
  | select {projection asOf instant access found columns rows}
      (bound : Option.Rel (fun o i => bindValue params o = .ok (.timestamp i)) asOf instant)
      (finds : access.Finds t params (if t.isTemporal then instant else none) found)
      (named : List.Forall₂
        (fun i name => ∃ c, t.relation.columns[i]? = some c ∧ c.name = name) projection columns)
      (shown : List.Forall₂ (fun row cells =>
        List.Forall₂ (fun (i : Nat) v => row[i]? = some v) projection cells) found rows) :
      Performs params t (.select projection asOf access) (.resultSet columns rows) t

namespace Execution

variable {t t' : Table} {params : List String} {now : Instant} {row row' : Row}
  {found : List Row} {access : Access} {asOf : Option Instant}

/-! ## Rows from assignments -/

/-- A column has the value of its last assignment, or its own if there is none. -/
theorem getElem?_assign (row : Row) (assignments : List (Nat × Value)) (i : Nat) :
    (Table.assign row assignments)[i]? =
      row[i]?.map fun v => (assignments.reverse.lookup i).getD v := by
  -- from the back: of two assignments to a column the later one counts
  induction assignments using List.reverseRecOn with
  | nil => exact Option.map_id_fun'.symm ▸ rfl
  | append_singleton before a ih =>
      obtain ⟨column, v⟩ := a
      have last : Table.assign row (before ++ [(column, v)]) =
          (Table.assign row before).set column v := by
        rw [Table.assign_append, Table.assign_cons]
        rfl
      rw [last, List.reverse_concat, List.lookup_cons]
      by_cases same : i = column
      · subst same
        rw [List.getElem?_set_self', ih, beq_self_eq_true]
        cases row[i]? <;> rfl
      · rw [List.getElem?_set_ne (Ne.symm same), ih, beq_eq_false_iff_ne.mpr same]

theorem assign_eq_override (row : Row) (assignments : List (Nat × Value)) :
    Table.assign row assignments = override row assignments := by
  apply List.ext_getElem?
  intro i
  unfold override
  rw [getElem?_assign, List.getElem?_mapIdx]

/-- The row of an insertion is assigned from left to right, as that of an update is. -/
theorem binds_of_insertedRow {values : List (Nat × Operand)}
    (h : insertedRow t params row values = .ok row') :
    ∃ assignments, Binds params values assignments ∧ (∀ a ∈ assignments, a.1 < row.length) ∧
      row' = Table.assign row assignments := by
  induction values generalizing row with
  | nil =>
      cases h
      exact ⟨[], .nil, List.forall_mem_nil _, rfl⟩
  | cons o rest ih =>
      obtain ⟨i, operand⟩ := o
      unfold insertedRow at h
      split at h
      · cases h
      · rename_i inside
        obtain ⟨v, bound, h⟩ := bind_eq_ok_iff.mp h
        obtain ⟨assignments, others, columns, made⟩ := ih h
        rw [List.length_set] at columns
        refine ⟨(i, v) :: assignments, .cons ⟨rfl, bound⟩ others, ?_, made.trans Table.assign_cons.symm⟩
        exact List.forall_mem_cons.mpr ⟨Nat.not_le.mp inside, columns⟩

/-! ## The present after a write -/

theorem rewrites_of_present {f : Row → Option Row} (h : t'.present = t.present.filterMap f) :
    t.Rewrites f t' where
  get? k := by
    rw [Table.get?_eq_find?_rowsAt, Table.get?_eq_find?_rowsAt, ← OrderedMap.find?_filterMap]
    exact congrArg (·.find? k) h
  scan := by
    rw [Table.scan_eq_values_rowsAt, Table.scan_eq_values_rowsAt, ← OrderedMap.values_filterMap]
    exact congrArg (·.values) h

theorem adds_of_insert (h : t.insert row now = .ok t') : t.Adds row t' := by
  obtain ⟨-, fresh, after⟩ := Table.present_of_insert h
  refine ⟨?_, fun k => ?_, ?_⟩
  · rw [Table.get?_eq_find?_rowsAt]
    exact fresh
  · rw [Table.get?_eq_find?_rowsAt, Table.get?_eq_find?_rowsAt]
    change t'.present.find? k = if _ then _ else t.present.find? k
    rw [after]
    split
    · rename_i same
      rw [same, OrderedMap.find?_insert_self]
    · rename_i other
      rw [OrderedMap.find?_insert_of_ne other]
  · rw [Table.scan_eq_values_rowsAt, Table.scan_eq_values_rowsAt]
    change t'.present.values.Perm (row :: t.present.values)
    rw [after]
    exact OrderedMap.values_insert_perm fresh

/-! ## The rows that are found -/

theorem held_of_finds (owns : t.relation.Owns (t.rowsAt asOf))
    (finds : access.Finds t params asOf found) (hrow : row ∈ found) :
    t.relation.Admits row ∧ (t.rowsAt asOf).find? (t.relation.keyOf row) = some row := by
  obtain ⟨k, held⟩ := ((finds.mem_iff row).mp hrow).1
  rw [Table.get?_eq_find?_rowsAt] at held
  obtain ⟨fits, rfl⟩ := owns k row held
  exact ⟨fits, held⟩

/-- A row that is held is found just if its key is among the keys that are found. -/
theorem mem_keys_iff (owns : t.relation.Owns t.present) (finds : access.Finds t params none found)
    {k : Key} (held : t.present.find? k = some row) :
    k ∈ found.map t.relation.keyOf ↔ row ∈ found := by
  constructor
  · intro hk
    obtain ⟨row', hrow', rfl⟩ := List.mem_map.mp hk
    -- a key holds one row only
    obtain rfl := Option.some.inj ((held_of_finds owns finds hrow').2.symm.trans held)
    exact hrow'
  · intro hrow
    obtain ⟨-, rfl⟩ := owns k row held
    exact List.mem_map_of_mem hrow

theorem present_keys_of_finds (owns : t.relation.Owns t.present)
    (finds : access.Finds t params none found) :
    ∀ k ∈ found.map t.relation.keyOf, t.present.find? k ≠ none := by
  intro k hk
  obtain ⟨row, hrow, rfl⟩ := List.mem_map.mp hk
  have held := (held_of_finds owns finds hrow).2
  change (t.rowsAt none).find? _ ≠ none
  rw [held]
  exact Option.some_ne_none row

/-! ## Operations -/

/-- An update assigns the rows that are found, all of them and no other. -/
theorem updateAll_rewrites {assignments : List (Nat × Value)} {n : Nat}
    (owns : t.relation.Owns t.present) (finds : access.Finds t params none found)
    (counted : (updateAll assignments now t (found.map t.relation.keyOf)).1 = .ok n) :
    n = found.length ∧
      t.Rewrites (fun row => some (if row ∈ found then override row assignments else row))
        (updateAll assignments now t (found.map t.relation.keyOf)).2 := by
  obtain ⟨rfl, rows⟩ := updateAll_present counted finds.nodup (present_keys_of_finds owns finds)
  refine ⟨List.length_map .., rewrites_of_present (OrderedMap.ext fun k => ?_)⟩
  rw [rows, OrderedMap.find?_filterMap]
  cases held : t.present.find? k with
  | none => exact ite_self none
  | some row =>
      rw [Option.map_some, Option.bind_some, assign_eq_override,
        if_congr (mem_keys_iff owns finds held) rfl rfl]
      exact (apply_ite some _ _ _).symm

/-- A deletion takes out the rows that are found, all of them and no other. -/
theorem deleteAll_rewrites (now : Instant) (owns : t.relation.Owns t.present)
    (finds : access.Finds t params none found) :
    (deleteAll now t (found.map t.relation.keyOf)).1 = found.length ∧
      t.Rewrites (fun row => if row ∈ found then none else some row)
        (deleteAll now t (found.map t.relation.keyOf)).2 := by
  obtain ⟨counted, rows⟩ := deleteAll_present now finds.nodup (present_keys_of_finds owns finds)
  refine ⟨counted.trans (List.length_map ..), rewrites_of_present (OrderedMap.ext fun k => ?_)⟩
  rw [rows, OrderedMap.find?_filterMap]
  cases held : t.present.find? k with
  | none => exact ite_self none
  | some row =>
      rw [Option.bind_some]
      exact if_congr (mem_keys_iff owns finds held) rfl rfl

theorem binds_of_mapM {operands : List (Nat × Operand)} {assignments : List (Nat × Value)}
    (h : (operands.mapM fun (i, o) => (bindValue params o).map fun v => (i, v)) =
      .ok assignments) : Binds params operands assignments := by
  refine (mapM_eq_ok_iff.mp h).imp fun (i, o) a bound => ?_
  dsimp only at bound
  cases value : bindValue params o with
  | error e =>
      rw [value] at bound
      cases bound
  | ok v =>
      rw [value] at bound
      cases bound
      exact ⟨rfl, rfl⟩

theorem bindInstant_eq_ok {o : Operand} {i : Instant} (h : bindInstant params o = .ok i) :
    bindValue params o = .ok (.timestamp i) := by
  obtain ⟨v, bound, h⟩ := bind_eq_ok_iff.mp h
  rw [bound]
  split at h
  · rw [Except.ok.inj h]
  · cases h

theorem rel_of_mapM {o : Option Operand} {instant : Option Instant}
    (h : o.mapM (bindInstant params) = .ok instant) :
    Option.Rel (fun o i => bindValue params o = .ok (.timestamp i)) o instant := by
  cases o with
  | none =>
      cases h
      exact .none
  | some o =>
      obtain ⟨i, bound, h⟩ := bind_eq_ok_iff.mp h
      cases h
      exact .some (bindInstant_eq_ok bound)

theorem named_of_columnNames {projection : List Nat} {columns : List String}
    (h : columnNames t projection = .ok columns) :
    List.Forall₂ (fun i name => ∃ c, t.relation.columns[i]? = some c ∧ c.name = name)
      projection columns := by
  refine (mapM_eq_ok_iff.mp h).imp fun i name hname => ?_
  split at hname
  · rename_i c there
    exact ⟨c, there, Except.ok.inj hname⟩
  · cases hname

theorem inside_of_columnNames {projection : List Nat} {columns : List String}
    (h : columnNames t projection = .ok columns) : ∀ i ∈ projection, i < t.relation.arity := by
  intro i hi
  obtain ⟨name, hname⟩ := exists_mapM_eq_ok_iff.mp ⟨columns, h⟩ i hi
  split at hname
  · rename_i c there
    exact (List.getElem?_eq_some_iff.mp there).1
  · cases hname

/-- The rows that are found have all columns that are shown. -/
theorem shown_of_inside {projection : List Nat} (inside : ∀ i ∈ projection, i < t.relation.arity)
    (fits : ∀ row ∈ found, t.relation.Admits row) :
    List.Forall₂ (fun row cells =>
      List.Forall₂ (fun (i : Nat) v => row[i]? = some v) projection cells)
      found (found.map (project projection)) := by
  rw [List.forall₂_map_right_iff, List.forall₂_same]
  intro row hrow
  rw [project_eq, List.forall₂_map_right_iff, List.forall₂_same]
  intro i hi
  have there : i < row.length := by
    rw [(fits row hrow).1]
    exact inside i hi
  rw [List.getElem?_eq_getElem there]
  rfl

/-- A conventional table finds its present rows, whenever they are asked for. -/
theorem finds_of_kind (finds : access.Finds t params asOf found) :
    access.Finds t params (if t.isTemporal then asOf else none) found := by
  cases kind : t.isTemporal with
  | true => exact finds
  | false =>
      refine ⟨fun row => ?_, finds.ascending⟩
      rw [finds.mem_iff]
      simp only [Table.get?_eq_find?_rowsAt, Table.rowsAt_of_conventional kind]

theorem finds_of_matchingKeys {keys : List Key} (owns : t.relation.Owns t.present)
    (h : matchingKeys t access params = .ok keys) :
    ∃ found, access.Finds t params none found ∧ keys = found.map t.relation.keyOf := by
  rw [matchingKeys_eq] at h
  obtain ⟨found, matching, h⟩ := bind_eq_ok_iff.mp h
  exact ⟨found, finds_of_matchingRows owns matching, (Except.ok.inj h).symm⟩

theorem performs_insert {values : List (Nat × Operand)}
    (made : insertedRow t params (.replicate t.relation.arity .null) values = .ok row)
    (done : t.insert row now = .ok t') : Performs params t (.insert values) (.affected 1) t' := by
  obtain ⟨assignments, bound, columns, assigned⟩ := binds_of_insertedRow made
  rw [List.length_replicate] at columns
  rw [assign_eq_override] at assigned
  have frame := Table.changesOnly_perform t (.insert row now)
  rw [Table.perform_insert done] at frame
  exact .insert bound columns assigned (adds_of_insert done) frame

theorem performs_update {operands : List (Nat × Operand)} {assignments : List (Nat × Value)}
    {keys : List Key} {n : Nat} (owns : t.relation.Owns t.present)
    (bound : (operands.mapM fun (i, o) => (bindValue params o).map fun v => (i, v)) =
      .ok assignments)
    (matching : matchingKeys t access params = .ok keys)
    (counted : (updateAll assignments now t keys).1 = .ok n) :
    Performs params t (.update operands access) (.affected n)
      (updateAll assignments now t keys).2 := by
  obtain ⟨found, finds, rfl⟩ := finds_of_matchingKeys owns matching
  obtain ⟨rfl, rewrites⟩ := updateAll_rewrites owns finds counted
  have frame := Table.changesOnly_run t (updates assignments now (found.map t.relation.keyOf))
  rw [map_key_updates, ← updateAll_eq_run] at frame
  exact .update (binds_of_mapM bound) finds rewrites frame

theorem performs_delete {keys : List Key} (owns : t.relation.Owns t.present)
    (matching : matchingKeys t access params = .ok keys) (now : Instant) :
    Performs params t (.delete access) (.affected (deleteAll now t keys).1)
      (deleteAll now t keys).2 := by
  obtain ⟨found, finds, rfl⟩ := finds_of_matchingKeys owns matching
  obtain ⟨counted, rewrites⟩ := deleteAll_rewrites now owns finds
  have frame := Table.changesOnly_run t (deletions now (found.map t.relation.keyOf))
  rw [map_key_deletions, ← deleteAll_eq_run] at frame
  rw [counted]
  exact .delete finds rewrites frame

theorem performs_select {projection : List Nat} {o : Option Operand} {columns : List String}
    (owns : t.relation.Owns (t.rowsAt asOf)) (bound : o.mapM (bindInstant params) = .ok asOf)
    (names : columnNames t projection = .ok columns)
    (matching : matchingRows t access params asOf = .ok found) :
    Performs params t (.select projection o access)
      (.resultSet columns (found.map (project projection))) t := by
  have finds := finds_of_matchingRows owns matching
  have fits : ∀ row ∈ found, t.relation.Admits row := fun row hrow =>
    (held_of_finds owns finds hrow).1
  exact .select (rel_of_mapM bound) (finds_of_kind finds) (named_of_columnNames names)
    (shown_of_inside (inside_of_columnNames names) fits)

/-- **An operation that runs without error on a reachable table performs** what it means. -/
theorem runOperation_performs (reachable : t.Reachable) {op : Operation} {out : QueryOutput}
    (ran : (runOperation op t params now).1 = .ok out) :
    Performs params t op out (runOperation op t params now).2 := by
  have course := runOperation_course op t params now
  generalize runOperation op t params now = result at course ran ⊢
  cases course with
  | refused e => cases ran
  | insert made done =>
      cases ran
      exact performs_insert made done
  | @update _ _ assignments keys bound matching =>
      cases counted : (updateAll assignments now t keys).1 with
      | error e =>
          rw [counted] at ran
          cases ran
      | ok n =>
          rw [counted] at ran
          cases ran
          exact performs_update (reachable.owns none) bound matching counted
  | delete matching =>
      cases ran
      exact performs_delete (reachable.owns none) matching now
  | @select _ _ _ instant _ _ bound names matching =>
      cases ran
      exact performs_select (reachable.owns instant) bound names matching

/-! ## Queries -/

variable {db : Database} {q : QueryProgram} {op : Operation} {out : QueryOutput}

theorem runQuery_of_ok (body : q.body = .execute op)
    (ran : (runQuery q db params false now).1 = .ok out) :
    ∃ t, db.table q.table = .ok t ∧ (runOperation op t params now).1 = .ok out ∧
      (runQuery q db params false now).2 =
        db.setTable q.table (runOperation op t params now).2 := by
  rw [runQuery_eq, body] at ran ⊢
  dsimp only at ran ⊢
  rw [if_neg Bool.false_ne_true] at ran ⊢
  split at ran
  · cases ran
  split at ran
  · cases ran
  rename_i supplied _ t found
  rw [if_neg supplied]
  exact ⟨t, found, ran, rfl⟩

/-- **Queries work on sets of rows.** If an operation runs without error on a reachable database,
the table that it names is one of the database, the operation performs what it means on it, and all
other tables stay. -/
theorem runQuery_performs (reachable : db.Reachable) (body : q.body = .execute op)
    (ran : (runQuery q db params false now).1 = .ok out) :
    ∃ t t', db.table q.table = .ok t ∧ Performs params t op out t' ∧
      (runQuery q db params false now).2.table q.table = .ok t' ∧
      (runQuery q db params false now).2.root = db.root ∧
      ∀ name ≠ foldCase q.table,
        (runQuery q db params false now).2.tables.find? name = db.tables.find? name := by
  obtain ⟨t, there, performed, after⟩ := runQuery_of_ok body ran
  have held := Database.table_eq_ok_iff.mp there
  rw [after]
  refine ⟨t, _, there, runOperation_performs (reachable.tables _ _ held) performed, ?_, rfl, ?_⟩
  · exact Database.table_eq_ok_iff.mpr OrderedMap.find?_insert_self
  · exact fun name other => OrderedMap.find?_insert_of_ne other

/-- A district without a name is put into warehouse 1. -/
def founding : QueryProgram :=
  ⟨1, "district", .execute (.insert [(0, .const .integer (.integer 1)), (1, .param 0 .integer)])⟩

def founded : Database :=
  let first := (runQuery founding (.new ⟨[district]⟩ ⟨"data"⟩) ["2"] false .last).2
  (runQuery founding first ["3"] false .first).2

/-- All districts of warehouse 1 from number 2 on get one name and then another. -/
def naming : Operation :=
  .update [(2, .const (.varchar 10) (.text "east")), (2, .param 0 (.varchar 10))]
    ⟨none, [⟨0, .eq, .const .integer (.integer 1)⟩, ⟨1, .gtEq, .const .integer (.integer 2)⟩]⟩

def namingProgram : QueryProgram := ⟨1, "District", .execute naming⟩

def renamed : Database := (runQuery namingProgram founded ["west"] false .first).2

theorem runQuery_performs_naming :
    (founded.table "district").toOption.map (·.scan none) =
      some [[.integer 1, .integer 2, .null], [.integer 1, .integer 3, .null]] ∧
    (renamed.table "district").toOption.map (·.scan none) =
      some [[.integer 1, .integer 2, .text "west"], [.integer 1, .integer 3, .text "west"]] ∧
    ∃ t t', founded.table "District" = .ok t ∧ Performs ["west"] t naming (.affected 2) t' ∧
      renamed.table "District" = .ok t' ∧ renamed.root = founded.root ∧
      ∀ name ≠ foldCase "District", renamed.tables.find? name = founded.tables.find? name := by
  have reachable : founded.Reachable :=
    ((Database.Reachable.new _ _).queried _ _ _ _).queried _ _ _ _
  have ran : (runQuery namingProgram founded ["west"] false .first).1 = .ok (.affected 2) := by
    decide +kernel
  have performed := runQuery_performs reachable rfl ran
  exact ⟨by decide +kernel, by decide +kernel, performed⟩

end Execution

end TemporalDB
