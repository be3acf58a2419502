import TemporalDB.Execution
import TemporalDB.Proofs.Table.Frame

/-!
# Writing to many rows

An update or a deletion writes to the rows of its keys one after the other, which is a run of
writes. As the assignments of an update are checked against the relation only, the update is refused
before its first write or not at all. On keys that are all held at present and differ from each
other every write takes effect, and none of them hides another.
-/

namespace TemporalDB

open Table Text

theorem Database.table_eq_ok_iff {db : Database} {name : String} {t : Table} :
    db.table name = .ok t ↔ db.tables.find? (foldCase name) = some t := by
  unfold table table?
  cases db.tables.find? (foldCase name) <;> simp

namespace Execution

variable {t t' : Table} {keys : List Key} {assignments : List (Nat × Value)} {now : Instant}
  {e : TableError} {n : Nat}

/-! ## Loops as runs -/

def updates (assignments : List (Nat × Value)) (now : Instant) (keys : List Key) : List Write :=
  keys.map fun k => .update k assignments now

def deletions (now : Instant) (keys : List Key) : List Write := keys.map fun k => .delete k now

theorem map_key_updates (r : Relation) : (updates assignments now keys).map (·.key r) = keys := by
  unfold updates
  rw [List.map_map]
  exact List.map_id keys

theorem map_key_deletions (r : Relation) : (deletions now keys).map (·.key r) = keys := by
  unfold deletions
  rw [List.map_map]
  exact List.map_id keys

theorem deleteAll_eq_run : (deleteAll now t keys).2 = t.run (deletions now keys) := by
  induction keys generalizing t with
  | nil => rfl
  | cons k rest ih => exact ih

theorem run_updates_of_refused (keys : List Key)
    (h : t.checkAssignments assignments = .error e) :
    t.run (updates assignments now keys) = t := by
  induction keys with
  | nil => rfl
  | cons k rest ih =>
      have refused : (t.perform (.update k assignments now)).2 = t := by
        simp only [perform, update_of_refused h]
      change (t.perform (.update k assignments now)).2.run (updates assignments now rest) = t
      rw [refused]
      exact ih

/-- An update is the run of its writes, and a refused one is the run of refused writes. -/
theorem updateAll_eq_run : (updateAll assignments now t keys).2 =
    t.run (updates assignments now keys) := by
  induction keys generalizing t with
  | nil => rfl
  | cons k rest ih =>
      rw [updateAll_cons]
      cases check : t.checkAssignments assignments with
      | error e =>
          -- the loop stops here, where the run goes on and is refused again and again
          rw [update_of_refused check]
          exact (run_updates_of_refused (k :: rest) check).symm
      | ok u =>
          obtain ⟨m, after, done, -⟩ := update_of_checked check k now
          rw [done]
          change (updateAll assignments now after rest).2 =
            (t.perform (.update k assignments now)).2.run (updates assignments now rest)
          rw [perform_update done]
          exact ih

/-! ## All or nothing -/

/-- An update whose assignments pass the check is never refused, and if it counts no row nothing has
changed. -/
theorem updateAll_of_checked (keys : List Key) (now : Instant)
    (h : t.checkAssignments assignments = .ok ()) :
    ∃ n, (updateAll assignments now t keys).1 = .ok n ∧
      (n = 0 → (updateAll assignments now t keys).2 = t) := by
  induction keys generalizing t with
  | nil => exact ⟨0, rfl, fun _ => rfl⟩
  | cons k rest ih =>
      obtain ⟨m, after, done, same⟩ := update_of_checked h k now
      -- the check looks at the relation only, which no write changes
      have checked : after.checkAssignments assignments = .ok () := by
        have relation := (changesOnly_perform t (.update k assignments now)).relation
        rw [perform_update done] at relation
        rw [checkAssignments_eq_ok_iff] at h ⊢
        rwa [relation]
      obtain ⟨n, counted, unchanged⟩ := ih checked
      rw [updateAll_cons, done]
      dsimp only
      rw [counted]
      refine ⟨_, rfl, fun none => ?_⟩
      cases m with
      | applied => exact absurd none (Nat.succ_ne_zero n)
      | noMatch =>
          obtain rfl := same rfl
          exact unchanged none

/-- **An update is refused before its first write or not at all**, and if it counts no row nothing
has changed. -/
theorem updateAll_unchanged (h : ∀ n, (updateAll assignments now t keys).1 = .ok n → n = 0) :
    (updateAll assignments now t keys).2 = t := by
  cases check : t.checkAssignments assignments with
  | error e =>
      rw [updateAll_eq_run]
      exact run_updates_of_refused keys check
  | ok u =>
      obtain ⟨n, counted, unchanged⟩ := updateAll_of_checked keys now check
      exact unchanged (h n counted)

theorem deleteAll_unchanged (h : (deleteAll now t keys).1 = 0) : (deleteAll now t keys).2 = t := by
  induction keys generalizing t with
  | nil => rfl
  | cons k rest ih =>
      unfold deleteAll at h ⊢
      dsimp only at h ⊢
      split at h
      · exact absurd h (Nat.succ_ne_zero _)
      · rename_i missed
        have none : (t.delete k now).1 = .noMatch := by
          cases m : (t.delete k now).1 with
          | applied => exact absurd m missed
          | noMatch => rfl
        have same := delete_of_noMatch none
        rw [same] at h ⊢
        exact ih h

/-! ## Every key its write -/

/-- An update of keys that are held and differ counts them all and assigns just their rows. -/
theorem updateAll_present (counted : (updateAll assignments now t keys).1 = .ok n)
    (nodup : keys.Nodup) (held : ∀ k ∈ keys, t.present.find? k ≠ none) :
    n = keys.length ∧ ∀ x, (updateAll assignments now t keys).2.present.find? x =
      if x ∈ keys then (t.present.find? x).map (assign · assignments) else t.present.find? x := by
  induction keys generalizing t n with
  | nil =>
      cases counted
      exact ⟨rfl, fun x => (if_neg List.not_mem_nil).symm⟩
  | cons k rest ih =>
      obtain ⟨fresh, nodup⟩ := List.nodup_cons.mp nodup
      obtain ⟨here, held⟩ := List.forall_mem_cons.mp held
      rw [updateAll_cons] at counted ⊢
      cases done : t.update k assignments now with
      | error e =>
          rw [done] at counted
          cases counted
      | ok result =>
          obtain ⟨m, after⟩ := result
          rw [done] at counted
          obtain ⟨-, ⟨absent, -, -⟩ | ⟨old, found, rfl, changed⟩⟩ := present_of_update done
          · exact absurd absent here
          have others : ∀ x ≠ k, after.present.find? x = t.present.find? x := fun x hx => by
            rw [changed, OrderedMap.find?_insert_of_ne hx]
          have elsewhere : ∀ x ∈ rest, x ≠ k := fun x hx same => fresh (same ▸ hx)
          dsimp only at counted ⊢
          cases more : (updateAll assignments now after rest).1 with
          | error e =>
              rw [more] at counted
              cases counted
          | ok n' =>
              rw [more] at counted
              cases counted
              have held' : ∀ x ∈ rest, after.present.find? x ≠ none := fun x hx => by
                rw [others x (elsewhere x hx)]
                exact held x hx
              obtain ⟨rfl, rows⟩ := ih more nodup held'
              refine ⟨rfl, fun x => ?_⟩
              rw [rows]
              by_cases hx : x = k
              · -- the keys differ, so nothing later is for this one
                subst hx
                rw [if_neg fresh, if_pos List.mem_cons_self, changed, OrderedMap.find?_insert_self,
                  found, Option.map_some]
              · simp only [others x hx, List.mem_cons, hx, false_or]

/-- A deletion of keys that are held and differ counts them all and takes out just their rows. -/
theorem deleteAll_present (now : Instant) (nodup : keys.Nodup)
    (held : ∀ k ∈ keys, t.present.find? k ≠ none) :
    (deleteAll now t keys).1 = keys.length ∧ ∀ x, (deleteAll now t keys).2.present.find? x =
      if x ∈ keys then none else t.present.find? x := by
  induction keys generalizing t with
  | nil => exact ⟨rfl, fun x => (if_neg List.not_mem_nil).symm⟩
  | cons k rest ih =>
      obtain ⟨fresh, nodup⟩ := List.nodup_cons.mp nodup
      obtain ⟨here, held⟩ := List.forall_mem_cons.mp held
      unfold deleteAll
      obtain ⟨m, after, done⟩ : ∃ m after, t.delete k now = (m, after) := ⟨_, _, rfl⟩
      rcases present_of_delete done with ⟨absent, -, -⟩ | ⟨old, found, rfl, changed⟩
      · exact absurd absent here
      have others : ∀ x ≠ k, after.present.find? x = t.present.find? x := fun x hx => by
        rw [changed, OrderedMap.find?_erase_of_ne hx]
      have held' : ∀ x ∈ rest, after.present.find? x ≠ none := fun x hx => by
        rw [others x fun same => fresh (same ▸ hx)]
        exact held x hx
      obtain ⟨counted, rows⟩ := ih nodup held'
      rw [done]
      dsimp only
      rw [counted]
      refine ⟨rfl, fun x => ?_⟩
      rw [rows]
      by_cases hx : x = k
      · -- the keys differ, so nothing later is for this one
        subst hx
        rw [if_neg fresh, if_pos List.mem_cons_self, changed, OrderedMap.find?_erase_self]
      · simp only [others x hx, List.mem_cons, hx, false_or]

/-! ## Operations and queries -/

theorem bindUpdate_eq_ok_iff {operands : List (Nat × Operand)} {access : Access}
    {params : List String} :
    bindUpdate t operands access params = .ok (assignments, keys) ↔
      bindAssignments params operands = .ok assignments ∧
        matchingKeys t access params = .ok keys := by
  rw [bindUpdate_eq, bind_eq_ok_iff]
  simp only [bind_eq_ok_iff, Except.ok.injEq, Prod.mk.injEq]
  constructor
  · rintro ⟨_, bound, _, matching, rfl, rfl⟩
    exact ⟨bound, matching⟩
  · rintro ⟨bound, matching⟩
    exact ⟨_, bound, _, matching, rfl, rfl⟩

/-- The courses that an operation can take: it is refused before it writes, or it has read and found
all that it needs and goes through its writes. -/
inductive Course (t : Table) (params : List String) (now : Instant) :
    Operation → Except ExecError QueryOutput × Table → Prop
  | refused {op} (e : ExecError) : Course t params now op (.error e, t)
  | insert {values row t'}
      (made : insertedRow t params (.replicate t.relation.arity .null) values = .ok row)
      (done : t.insert row now = .ok t') :
      Course t params now (.insert values) (.ok (.affected 1), t')
  | update {operands access assignments keys}
      (bound : bindAssignments params operands = .ok assignments)
      (matching : matchingKeys t access params = .ok keys) :
      Course t params now (.update operands access)
        (((updateAll assignments now t keys).1.map QueryOutput.affected).mapError refusal,
          (updateAll assignments now t keys).2)
  | delete {access keys} (matching : matchingKeys t access params = .ok keys) :
      Course t params now (.delete access)
        (.ok (.affected (deleteAll now t keys).1), (deleteAll now t keys).2)
  | select {projection asOf access instant columns found}
      (bound : asOf.mapM (bindInstant params) = .ok instant)
      (names : columnNames t projection = .ok columns)
      (matching : matchingRows t access params instant = .ok found) :
      Course t params now (.select projection asOf access)
        (.ok (.resultSet columns (found.map (project projection))), t)

theorem runOperation_course (op : Operation) (t : Table) (params : List String) (now : Instant) :
    Course t params now op (runOperation op t params now) := by
  cases op with
  | insert values =>
      rw [runOperation_insert]
      split
      · exact .refused _
      · rename_i row made
        split
        · exact .refused _
        · rename_i t' done
          exact .insert made done
  | update operands access =>
      rw [runOperation_update]
      split
      · exact .refused _
      · rename_i assignments keys bound
        obtain ⟨values, matching⟩ := bindUpdate_eq_ok_iff.mp bound
        exact .update values matching
  | delete access =>
      rw [runOperation_delete]
      split
      · exact .refused _
      · rename_i keys matching
        exact .delete matching
  | select projection asOf access =>
      rw [runOperation_select]
      cases selected : select t projection asOf access params with
      | error e => exact .refused e
      | ok out =>
          rw [select_eq] at selected
          obtain ⟨instant, bound, selected⟩ := bind_eq_ok_iff.mp selected
          obtain ⟨columns, names, selected⟩ := bind_eq_ok_iff.mp selected
          obtain ⟨found, matching, selected⟩ := bind_eq_ok_iff.mp selected
          cases selected
          exact .select bound names matching

theorem runOperation_eq_run (op : Operation) (t : Table) (params : List String) (now : Instant) :
    ∃ ws, (runOperation op t params now).2 = t.run ws := by
  have course := runOperation_course op t params now
  generalize runOperation op t params now = result at course ⊢
  cases course with
  | refused e => exact ⟨[], rfl⟩
  | insert made done => exact ⟨[.insert _ now], (perform_insert done).symm⟩
  | update bound matching => exact ⟨_, updateAll_eq_run⟩
  | delete matching => exact ⟨_, deleteAll_eq_run⟩
  | select bound names matching => exact ⟨[], rfl⟩

/-- A query leaves the tables, or puts one in the place of the table that it is for. -/
theorem runQuery_cases (q : QueryProgram) (db : Database) (params : List String) (explain : Bool)
    (now : Instant) :
    (runQuery q db params explain now).2 = db ∨
      ∃ op t, q.body = .execute op ∧ db.table q.table = .ok t ∧
        runQuery q db params explain now =
          ((runOperation op t params now).1,
            db.setTable q.table (runOperation op t params now).2) := by
  rw [runQuery_eq]
  split
  · exact .inl rfl
  · rename_i op body
    split
    · exact .inl rfl
    · split
      · exact .inl rfl
      · split
        · exact .inl rfl
        · rename_i t found
          exact .inr ⟨op, t, body, found, rfl⟩

end Execution

end TemporalDB
