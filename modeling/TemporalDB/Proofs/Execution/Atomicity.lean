import TemporalDB.Proofs.Execution.Loop

/-!
# All or nothing

A query that fails, explains or selects leaves the database as it was. What a statement binds and
looks up is bound and looked up before the first write, an insertion is one write, and an update
that is refused is refused at its first write. Main statement: `runQuery_all_or_nothing`.
-/

namespace TemporalDB

theorem Database.setTable_of_table {db : Database} {name : String} {t : Table}
    (h : db.table name = .ok t) : db.setTable name t = db :=
  congrArg (Database.mk db.root) (OrderedMap.insert_of_find?_eq_some (table_eq_ok_iff.mp h))

namespace Execution

/-- An operation leaves the table alone unless it counts rows. -/
theorem runOperation_unchanged (op : Operation) (t : Table) (params : List String) (now : Instant) :
    (runOperation op t params now).2 = t ∨
      ∃ n, 0 < n ∧ (runOperation op t params now).1 = .ok (.affected n) := by
  have course := runOperation_course op t params now
  generalize runOperation op t params now = result at course ⊢
  cases course with
  | refused e => exact .inl rfl
  | insert made done => exact .inr ⟨1, Nat.one_pos, rfl⟩
  | @update _ _ assignments keys bound matching =>
      cases counted : (updateAll assignments now t keys).1 with
      | error e => exact .inl (updateAll_unchanged fun n h => nomatch counted.symm.trans h)
      | ok n =>
          rcases Nat.eq_zero_or_pos n with rfl | some
          · refine .inl (updateAll_unchanged fun n h => ?_)
            exact (Except.ok.inj (counted.symm.trans h)).symm
          · exact .inr ⟨n, some, rfl⟩
  | @delete _ keys matching =>
      rcases Nat.eq_zero_or_pos (deleteAll now t keys).1 with none | some
      · exact .inl (deleteAll_unchanged none)
      · exact .inr ⟨_, some, rfl⟩
  | select bound names matching => exact .inl rfl

theorem runQuery_unchanged (q : QueryProgram) (db : Database) (params : List String)
    (explain : Bool) (now : Instant) :
    (runQuery q db params explain now).2 = db ∨
      ∃ n, 0 < n ∧ (runQuery q db params explain now).1 = .ok (.affected n) := by
  rcases runQuery_cases q db params explain now with same | ⟨op, t, -, found, ran⟩
  · exact .inl same
  · rw [ran]
    rcases runOperation_unchanged op t params now with same | counted
    · rw [same]
      exact .inl (Database.setTable_of_table found)
    · exact .inr counted

/-- **All or nothing.** Whatever the program, the database and the parameters are, a query that
fails, explains or gives a result set leaves every table with its rows and versions as it was, and
so does one that counts no row. -/
theorem runQuery_all_or_nothing (q : QueryProgram) (db : Database) (params : List String)
    (explain : Bool) (now : Instant) :
    match runQuery q db params explain now with
    | (.error _, after) => after = db
    | (.ok (.explained _), after) => after = db
    | (.ok (.resultSet _ _), after) => after = db
    | (.ok (.affected n), after) => n = 0 → after = db := by
  have unchanged := runQuery_unchanged q db params explain now
  generalize runQuery q db params explain now = result at unchanged ⊢
  obtain ⟨answer, after⟩ := result
  rcases unchanged with same | ⟨n, some, counted⟩
  · obtain rfl : after = db := same
    rcases answer with _ | ⟨_ | _ | _⟩
    · rfl
    · exact fun _ => rfl
    · rfl
    · rfl
  · obtain rfl : answer = .ok (.affected n) := counted
    exact fun none => absurd none (Nat.ne_of_gt some)

end Execution

end TemporalDB
