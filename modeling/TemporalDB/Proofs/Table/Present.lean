import TemporalDB.Proofs.Table.AsOf

/-!
# The present of a table

The present rows of a table are a conventional table by themselves. Writes and reads of the present
do not tell the two apart: what a write answers and which rows it leaves depend on the present rows
alone, not on what came before them nor on the instants. `plain_insert`, `plain_update` and
`plain_delete` say so for one write each.
-/

namespace TemporalDB

/-- The relation without its history. -/
def Relation.plain (r : Relation) : Relation := { r with temporal := false }

/-- The relations differ at most in whether they keep history. -/
theorem Relation.plain_eq_plain_iff {r s : Relation} :
    r.plain = s.plain ↔ r.name = s.name ∧ r.columns = s.columns ∧ r.primaryKey = s.primaryKey := by
  simp [plain]

namespace Table

variable {t t' : Table} {k : Key} {row : Row} {now now' : Instant} {m : Mutation}
  {assignments : List (Nat × Value)}

def rowsAt (t : Table) (asOf : Option Instant) : OrderedMap Key Row :=
  match t.rows with
  | .temporal chains => shown chains asOf
  | .conventional rows => rows

theorem get?_eq_find?_rowsAt (k : Key) (asOf : Option Instant) :
    t.get? k asOf = (t.rowsAt asOf).find? k := by
  obtain ⟨r, chains | rows⟩ := t
  · exact get?_eq_find?_shown k asOf
  · rfl

theorem scan_eq_values_rowsAt (asOf : Option Instant) : t.scan asOf = (t.rowsAt asOf).values := by
  obtain ⟨r, chains | rows⟩ := t
  · exact scan_eq_values_shown asOf
  · rfl

def present (t : Table) : OrderedMap Key Row := t.rowsAt none

theorem size_eq_size_present : t.size = t.present.size := by
  obtain ⟨r, chains | rows⟩ := t
  · have length : (shown chains none).size = (shown chains none).values.length := by
      simp [OrderedMap.size, OrderedMap.values]
    change chains.values.countP (·.current?.isSome) = (shown chains none).size
    rw [length, shown, OrderedMap.values_filterMap, List.length_filterMap_eq_countP]
    congr 1
    funext c
    exact Option.isSome_map.symm
  · rfl

/-- The present rows as a conventional table. -/
def plain (t : Table) : Table := ⟨t.relation.plain, .conventional t.present⟩

/-- The row that a chain shows takes the place of its key's row; that of a chain that shows none
goes. -/
theorem shown_insert (chains : OrderedMap Key VersionChain) (k : Key) (c : VersionChain)
    (asOf : Option Instant) : shown (chains.insert k c) asOf =
      ((c.at? asOf).map (·.row)).elim ((shown chains asOf).erase k)
        ((shown chains asOf).insert k) := by
  apply OrderedMap.ext
  intro x
  unfold shown
  rw [OrderedMap.find?_filterMap]
  by_cases hx : x = k
  · subst hx
    rw [OrderedMap.find?_insert_self, Option.bind_some]
    cases (c.at? asOf).map (·.row) with
    | none => exact OrderedMap.find?_erase_self.symm
    | some row => exact OrderedMap.find?_insert_self.symm
  · rw [OrderedMap.find?_insert_of_ne hx, ← OrderedMap.find?_filterMap]
    cases (c.at? asOf).map (·.row) with
    | none => exact (OrderedMap.find?_erase_of_ne hx).symm
    | some row => exact (OrderedMap.find?_insert_of_ne hx).symm

/-! ## Reads -/

theorem get?_plain (k : Key) (asOf : Option Instant) : t.plain.get? k asOf = t.get? k none :=
  (get?_eq_find?_rowsAt k none).symm

theorem scan_plain (asOf : Option Instant) : t.plain.scan asOf = t.scan none :=
  (scan_eq_values_rowsAt none).symm

theorem size_plain : t.plain.size = t.size := size_eq_size_present.symm

/-! ## Writes -/

theorem find?_present_temporal {r : Relation} {chains : OrderedMap Key VersionChain} :
    (present ⟨r, .temporal chains⟩).find? k =
      ((chains.find? k).bind (·.current?)).map (·.row) := by
  change (shown chains none).find? k = _
  unfold shown
  rw [OrderedMap.find?_filterMap, Option.map_bind]
  rfl

variable {r : Relation} {chains : OrderedMap Key VersionChain} {c : VersionChain}

/-- The present row of a changed chain takes the place of the one before. -/
theorem plain_insert_of_current (h : c.current?.map (·.row) = some row) :
    plain ⟨r, .temporal (chains.insert k c)⟩ =
      ⟨r.plain, .conventional ((present ⟨r, .temporal chains⟩).insert k row)⟩ := by
  have rows := shown_insert chains k c none
  rw [VersionChain.at?, h] at rows
  exact congrArg (fun rows => (⟨r.plain, .conventional rows⟩ : Table)) rows

theorem plain_insert_of_ended (h : c.current? = none) :
    plain ⟨r, .temporal (chains.insert k c)⟩ =
      ⟨r.plain, .conventional ((present ⟨r, .temporal chains⟩).erase k)⟩ := by
  have rows := shown_insert chains k c none
  rw [VersionChain.at?, h] at rows
  exact congrArg (fun rows => (⟨r.plain, .conventional rows⟩ : Table)) rows

theorem plain_insert (t : Table) (row : Row) (now now' : Instant) :
    t.plain.insert row now' = (t.insert row now).map plain := by
  have checks : t.plain.checkRow row = t.checkRow row := rfl
  rw [insert_eq, insert_eq, checks]
  cases t.checkRow row with
  | error e => rfl
  | ok u =>
      obtain ⟨r, chains | rows⟩ := t
      · have same : r.plain.keyOf row = r.keyOf row := rfl
        rw [ok_bind, ok_bind]
        simp only [add, plain, find?_present_temporal, same]
        -- a key whose chain has ended counts as one that was never held
        cases chains.find? (r.keyOf row) with
        | none => exact congrArg Except.ok (plain_insert_of_current rfl).symm
        | some c =>
            cases hcurrent : c.current? with
            | some v =>
                simp only [Option.bind_some, hcurrent]
                rfl
            | none =>
                simp only [Option.bind_some, hcurrent]
                exact congrArg Except.ok (plain_insert_of_current rfl).symm
      · simp only [ok_bind, add, plain, present, rowsAt, Relation.keyOf, Relation.plain]
        cases rows.find? _ <;> rfl

theorem plain_update (t : Table) (k : Key) (assignments : List (Nat × Value)) (now now' : Instant) :
    t.plain.update k assignments now' =
      (t.update k assignments now).map (Prod.map id plain) := by
  have checks : t.plain.checkAssignments assignments = t.checkAssignments assignments := rfl
  rw [update_eq, checks]
  obtain ⟨r, chains | rows⟩ := t
  · have kept : Keeps ⟨r, .temporal chains⟩ chains := rfl
    rw [update_of_keeps kept]
    cases checkAssignments ⟨r, .temporal chains⟩ assignments with
    | error e => rfl
    | ok u =>
        simp only [ok_bind, get?, replace, plain, find?_present_temporal]
        cases chains.find? k with
        | none => rfl
        | some c =>
            unfold VersionChain.supersede?
            cases hclose : c.close? now with
            | none =>
                simp only [Option.bind_some, VersionChain.close?_eq_none_iff.mp hclose, hclose]
                rfl
            | some closed =>
                simp only [Option.bind_some, (VersionChain.current?_of_close hclose).1, hclose]
                exact congrArg (fun t => Except.ok (Mutation.applied, t))
                  (plain_insert_of_current rfl).symm
  · rw [update_eq]
    cases checkAssignments ⟨r, .conventional rows⟩ assignments with
    | error e => rfl
    | ok u =>
        simp only [ok_bind, get?, replace, plain, present, rowsAt]
        cases rows.find? k <;> rfl

theorem plain_delete (t : Table) (k : Key) (now now' : Instant) :
    t.plain.delete k now' = Prod.map id plain (t.delete k now) := by
  obtain ⟨r, chains | rows⟩ := t
  · simp only [delete, plain, find?_present_temporal]
    cases chains.find? k with
    | none => rfl
    | some c =>
        cases hclose : c.close? now with
        | none =>
            simp only [Option.bind_some, VersionChain.close?_eq_none_iff.mp hclose, hclose]
            rfl
        | some closed =>
            obtain ⟨before, after⟩ := VersionChain.current?_of_close hclose
            simp only [Option.bind_some, before, hclose]
            exact congrArg (Prod.mk Mutation.applied) (plain_insert_of_ended after).symm
  · simp only [delete, plain, present, rowsAt]
    cases rows.find? k <;> rfl

/-! ## What a write leaves of the present -/

theorem present_of_plain {rows : OrderedMap Key Row} (h : t.plain = ⟨r, .conventional rows⟩) :
    t.present = rows := by
  cases h
  rfl

theorem present_of_insert (h : t.insert row now = .ok t') :
    t.relation.Admits row ∧ t.present.find? (t.relation.keyOf row) = none ∧
      t'.present = t.present.insert (t.relation.keyOf row) row := by
  have plain := t.plain_insert row now now
  rw [h, insert_eq] at plain
  obtain ⟨u, fits, plain⟩ := bind_eq_ok_iff.mp plain
  refine ⟨checkRow_eq_ok_iff.mp fits, ?_⟩
  dsimp only [add, Table.plain] at plain
  split at plain
  · cases plain
  · rename_i held
    exact ⟨held, present_of_plain (Except.ok.inj plain).symm⟩

/-- An update whose assignments fit finds no row and does nothing, or the row that it finds gets
the assignments. -/
theorem present_of_update (h : t.update k assignments now = .ok (m, t')) :
    t.relation.AdmitsAll assignments ∧
    ((t.present.find? k = none ∧ m = .noMatch ∧ t'.present = t.present) ∨
    (∃ old, t.present.find? k = some old ∧ m = .applied ∧
      t'.present = t.present.insert k (assign old assignments))) := by
  have plain := t.plain_update k assignments now now
  rw [h, update_eq] at plain
  obtain ⟨u, fits, plain⟩ := bind_eq_ok_iff.mp plain
  refine ⟨checkAssignments_eq_ok_iff.mp fits, ?_⟩
  dsimp only [get?, replace, Table.plain] at plain
  cases held : t.present.find? k with
  | none =>
      rw [held] at plain
      obtain ⟨rfl, after⟩ := Prod.mk.inj (Except.ok.inj plain)
      exact .inl ⟨rfl, rfl, present_of_plain after.symm⟩
  | some old =>
      rw [held] at plain
      obtain ⟨rfl, after⟩ := Prod.mk.inj (Except.ok.inj plain)
      exact .inr ⟨old, rfl, rfl, present_of_plain after.symm⟩

/-- A deletion finds no row and does nothing, or the row that it finds goes. -/
theorem present_of_delete (h : t.delete k now = (m, t')) :
    (t.present.find? k = none ∧ m = .noMatch ∧ t'.present = t.present) ∨
    (∃ old, t.present.find? k = some old ∧ m = .applied ∧ t'.present = t.present.erase k) := by
  have plain := t.plain_delete k now now
  rw [h] at plain
  dsimp only [delete, Table.plain] at plain
  split at plain
  · rename_i held
    obtain ⟨rfl, after⟩ := Prod.mk.inj plain
    exact .inl ⟨held, rfl, present_of_plain after.symm⟩
  · rename_i old held
    obtain ⟨rfl, after⟩ := Prod.mk.inj plain
    exact .inr ⟨old, held, rfl, present_of_plain after.symm⟩

/-- A write leaves the present as it is, or puts what it makes of the row of its key in the place
of that row. -/
theorem present_perform (t : Table) (w : Write) :
    (t.perform w).2.present = t.present ∨
    (t.relation.AdmitsWrite w ∧ (t.perform w).2.present =
      (w.replay (t.present.find? (w.key t.relation))).elim (t.present.erase (w.key t.relation))
        (t.present.insert (w.key t.relation))) := by
  cases w with
  | insert row now =>
      cases h : t.insert row now with
      | error e => exact .inl (by simp only [perform, h])
      | ok t' =>
          obtain ⟨fits, -, after⟩ := present_of_insert h
          exact .inr ⟨fits, by simp only [perform, h]; exact after⟩
  | update k assignments now =>
      cases h : t.update k assignments now with
      | error e => exact .inl (by simp only [perform, h])
      | ok result =>
          obtain ⟨m, t'⟩ := result
          obtain ⟨fits, ⟨-, -, same⟩ | ⟨old, held, -, after⟩⟩ := present_of_update h
          · exact .inl (by simp only [perform, h, same])
          · refine .inr ⟨fits, ?_⟩
            simp only [perform, h, Write.key, held]
            exact after
  | delete k now =>
      rcases present_of_delete (rfl : t.delete k now = _) with ⟨-, -, same⟩ | ⟨-, -, -, after⟩
      · exact .inl same
      · exact .inr ⟨trivial, after⟩

end Table

end TemporalDB
