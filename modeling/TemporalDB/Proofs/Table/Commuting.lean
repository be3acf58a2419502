import TemporalDB.Proofs.Table.AsOf

/-!
# Writes to different keys

A write reads and changes nothing but what its own key holds: `onChain` and `onRow` say what it
answers and what it leaves there, in a temporal table and in a conventional one. So writes to
different keys can be made in either order. Main statement: `perform_comm`.
-/

namespace TemporalDB

open Table

namespace Write

/-- What a write answers, and the chain that its key holds then, by the chain that it held. -/
def onChain (r : Relation) (held : Option VersionChain) :
    Write → Except TableError Mutation × Option VersionChain
  | insert row now =>
    match (Table.new r).checkRow row, held with
    | .error e, _ => (.error e, held)
    | .ok (), none => (.ok .applied, some (.new row now))
    | .ok (), some c =>
      if c.current?.isSome then (.error (.duplicateKey r.name (r.keyOf row)), held)
      else (.ok .applied, some (c.reopen row now))
  | update _ assignments now =>
    match (Table.new r).checkAssignments assignments with
    | .error e => (.error e, held)
    | .ok () =>
      match held.bind fun c => c.supersede? (assign c.last.row assignments) now with
      | none => (.ok .noMatch, held)
      | some c => (.ok .applied, some c)
  | delete _ now =>
    match held.bind (·.close? now) with
    | none => (.ok .noMatch, held)
    | some c => (.ok .applied, some c)

/-- What a write answers, and the row that its key holds then, by the row that it held. -/
def onRow (r : Relation) (held : Option Row) : Write → Except TableError Mutation × Option Row
  | insert row _ =>
    match (Table.new r).checkRow row, held with
    | .error e, _ => (.error e, held)
    | .ok (), none => (.ok .applied, some row)
    | .ok (), some _ => (.error (.duplicateKey r.name (r.keyOf row)), held)
  | update _ assignments _ =>
    match (Table.new r).checkAssignments assignments, held with
    | .error e, _ => (.error e, held)
    | .ok (), none => (.ok .noMatch, none)
    | .ok (), some row => (.ok .applied, some (assign row assignments))
  | delete .. =>
    match held with
    | none => (.ok .noMatch, none)
    | some _ => (.ok .applied, none)

end Write

namespace Table

variable {ν : Type} {kind : OrderedMap Key ν → Table} {r : Relation} {w w' : Write} {k k' : Key}
  {f f' : Option ν → Except TableError Mutation × Option ν}

/-- A write answers, and leaves to its key, what a function makes of what the key held, and no other
key counts. `kind` makes a table of what the keys hold. -/
def Local (kind : OrderedMap Key ν → Table) (w : Write) (k : Key)
    (f : Option ν → Except TableError Mutation × Option ν) : Prop :=
  ∀ held, (kind held).perform w = ((f (held.find? k)).1, kind (held.put k (f (held.find? k)).2))

theorem local_temporal (r : Relation) (w : Write) :
    Local (fun chains => ⟨r, .temporal chains⟩) w (w.key r) (w.onChain r) := by
  intro chains
  cases w with
  | insert row now =>
      -- the checks look at the relation only, so the rows of other keys have no say in them
      have checks : checkRow ⟨r, .temporal chains⟩ row = (new r).checkRow row := rfl
      simp only [perform, insert_eq, add, Write.onChain, Write.key, checks]
      cases (new r).checkRow row with
      | error e => simp only [bind, Except.bind, OrderedMap.put_of_find? rfl]
      | ok u =>
          simp only [ok_bind]
          cases held : chains.find? (r.keyOf row) with
          | none => rfl
          | some c =>
              dsimp only
              split_ifs
              · simp only [OrderedMap.put_of_find? held]
              · rfl
  | update k assignments now =>
      have checks : checkAssignments ⟨r, .temporal chains⟩ assignments =
        (new r).checkAssignments assignments := rfl
      have goesOn := update_of_keeps (t := ⟨r, .temporal chains⟩) rfl k assignments now
      rw [checks] at goesOn
      simp only [perform, goesOn, Write.onChain, Write.key]
      cases (new r).checkAssignments assignments with
      | error e => simp only [bind, Except.bind, OrderedMap.put_of_find? rfl]
      | ok u =>
          simp only [ok_bind]
          cases held : chains.find? k with
          | none => simp only [Option.bind_none, OrderedMap.put_of_find? held]
          | some c =>
              simp only [Option.bind_some]
              cases c.supersede? (assign c.last.row assignments) now with
              | none => simp only [OrderedMap.put_of_find? held]
              | some c' => rfl
  | delete k now =>
      simp only [perform, delete, Write.onChain, Write.key]
      cases (chains.find? k).bind (·.close? now) with
      | none => simp only [OrderedMap.put_of_find? rfl]
      | some c => rfl

theorem local_conventional (r : Relation) (w : Write) :
    Local (fun rows => ⟨r, .conventional rows⟩) w (w.key r) (w.onRow r) := by
  intro rows
  cases w with
  | insert row now =>
      have checks : checkRow ⟨r, .conventional rows⟩ row = (new r).checkRow row := rfl
      simp only [perform, insert_eq, add, Write.onRow, Write.key, checks]
      cases (new r).checkRow row with
      | error e => simp only [bind, Except.bind, OrderedMap.put_of_find? rfl]
      | ok u =>
          simp only [ok_bind]
          cases held : rows.find? (r.keyOf row) with
          | none => rfl
          | some old => simp only [OrderedMap.put_of_find? held]
  | update k assignments now =>
      have checks : checkAssignments ⟨r, .conventional rows⟩ assignments =
        (new r).checkAssignments assignments := rfl
      simp only [perform, update_eq, get?, replace, Write.onRow, Write.key, checks]
      cases (new r).checkAssignments assignments with
      | error e => simp only [bind, Except.bind, OrderedMap.put_of_find? rfl]
      | ok u =>
          simp only [ok_bind]
          cases held : rows.find? k with
          | none => simp only [OrderedMap.put_of_find? held]
          | some old => rfl
  | delete k now =>
      simp only [perform, delete, Write.onRow, Write.key]
      cases held : rows.find? k with
      | none => simp only [OrderedMap.put_of_find? held]
      | some old => rfl

/-- Writes that are local to different keys can be made in either order. -/
theorem Local.comm (h : Local kind w k f) (h' : Local kind w' k' f') (ne : k ≠ k')
    (held : OrderedMap Key ν) :
    (((kind held).perform w').2.perform w).1 = ((kind held).perform w).1 ∧
      (((kind held).perform w).2.perform w').1 = ((kind held).perform w').1 ∧
      (((kind held).perform w).2.perform w').2 = (((kind held).perform w').2.perform w).2 := by
  rw [h held, h' held, h, h', OrderedMap.find?_put_of_ne ne, OrderedMap.find?_put_of_ne ne.symm,
    OrderedMap.put_comm ne]
  exact ⟨rfl, rfl, rfl⟩

/-- **Writes to different keys can be made in either order.** Whatever they are, whenever they are
made and whatever is in the table, each of the two answers the same before and after the other, and
both orders leave the same table, with the same versions. -/
theorem perform_comm (t : Table) (apart : w.key t.relation ≠ w'.key t.relation) :
    ((t.perform w').2.perform w).1 = (t.perform w).1 ∧
      ((t.perform w).2.perform w').1 = (t.perform w').1 ∧
      ((t.perform w).2.perform w').2 = ((t.perform w').2.perform w).2 := by
  obtain ⟨r, chains | rows⟩ := t
  · exact (local_temporal r w).comm (local_temporal r w') apart chains
  · exact (local_conventional r w).comm (local_conventional r w') apart rows

def branches : Table := (new warehouse).run (moves ++ [.insert [.integer 2, .text "Nice"] noon])

/-- The first comes back before it was given up, by its clock, and the other moves much later. -/
theorem perform_comm_returning :
    let w : Write := .insert [.integer 1, .text "Lille"] .first
    let w' : Write := .update [.integer 2] [(1, .text "Lyon")] .last
    w.key branches.relation ≠ w'.key branches.relation ∧
      (branches.perform w).1 = .ok .applied ∧ (branches.perform w').1 = .ok .applied ∧
      ((branches.perform w').2.perform w).1 = (branches.perform w).1 ∧
      ((branches.perform w).2.perform w').1 = (branches.perform w').1 ∧
      ((branches.perform w).2.perform w').2 = ((branches.perform w').2.perform w).2 := by
  intro w w'
  have apart : w.key branches.relation ≠ w'.key branches.relation := by decide
  exact ⟨apart, rfl, rfl, perform_comm branches apart⟩

end Table

end TemporalDB
