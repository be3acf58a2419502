import TemporalDB.Proofs.Execution.Loop
import TemporalDB.Proofs.Table.Identity

/-!
# Databases that can be reached

A database comes from a schema, without rows or with those of the files in a directory, and from
there by writes to its tables and by queries. Whatever has been done, each of its tables has come
about by a run of writes to an empty table (`Database.Reachable.tables`), for an operation of a
query is a run of writes, too.
-/

namespace TemporalDB

open Text Execution

/-- The table has come about by writes to an empty one. -/
def Table.Reachable (t : Table) : Prop := ∃ ws, t = (Table.new t.relation).run ws

/-- The database has been opened and written to. -/
inductive Database.Reachable : Database → Prop
  | new (s : Schema) (root : Path) : Reachable (.new s root)
  | opened {files : FileTree} {s : Schema} {root : Path} {now : Instant} {db : Database}
      (done : Database.open files s root now = .ok db) : Reachable db
  | wrote {db : Database} {name : String} {t : Table} (before : Reachable db)
      (there : db.table name = .ok t) (w : Write) : Reachable (db.setTable name (t.perform w).2)
  | queried {db : Database} (before : Reachable db) (q : QueryProgram) (params : List String)
      (explain : Bool) (now : Instant) : Reachable (runQuery q db params explain now).2

namespace Table

variable {t t' : Table} {now : Instant}

theorem reachable_new (r : Relation) : (new r).Reachable := ⟨[], rfl⟩

theorem Reachable.run (h : t.Reachable) (ws : List Write) : (t.run ws).Reachable := by
  obtain ⟨before, came⟩ := h
  refine ⟨before ++ ws, ?_⟩
  rw [(changesOnly_run t ws).relation, run_append, ← came]

/-- The rows that a reachable table shows fit the relation and have their keys. -/
theorem Reachable.owns (h : t.Reachable) (asOf : Option Instant) :
    t.relation.Owns (t.rowsAt asOf) := by
  obtain ⟨ws, came⟩ := h
  have owns := owns_run t.relation ws asOf
  rwa [← came] at owns

/-! ## Loading -/

theorem run_of_loadLine {line : List Char} (h : loadLine now t line = .ok t') :
    ∃ ws, t' = t.run ws := by
  obtain ⟨row, -, h⟩ := bind_eq_ok_iff.mp h
  exact ⟨[.insert row now], (perform_insert (mapError_eq_ok_iff.mp h)).symm⟩

theorem run_of_loadLines {lines : List (List Char)} {number : Nat}
    (h : t.loadLines now number lines = .ok t') : ∃ ws, t' = t.run ws := by
  induction lines generalizing t number with
  | nil =>
      cases h
      exact ⟨[], rfl⟩
  | cons line rest ih =>
      unfold loadLines at h
      split at h
      · exact ih h
      · split at h
        · cases h
        · rename_i after done
          obtain ⟨first, rfl⟩ := run_of_loadLine done
          obtain ⟨later, rfl⟩ := ih h
          exact ⟨first ++ later, (run_append t first later).symm⟩

theorem run_of_load {files : FileTree} {path : Path} (h : t.load now files path = .ok t') :
    ∃ ws, t' = t.run ws := by
  unfold load at h
  split at h
  · cases h
    exact ⟨[], rfl⟩
  · cases h
  · exact run_of_loadLines (mapError_eq_ok_iff.mp h)

end Table

namespace Database

variable {db db' : Database} {files : FileTree} {s : Schema} {root : Path} {now : Instant}
  {entry : String × Table}

def loadEntry (files : FileTree) (root : Path) (now : Instant) (db : Database)
    (entry : String × Table) : Except StorageError Database := do
  let t ← entry.2.load now files (filePath root entry.2.relation.name)
  .ok { db with tables := db.tables.insert entry.1 t }

/-- A database is opened by loading its tables, one after another. -/
theorem open_eq_foldlM : Database.open files s root now =
    (new s root).tables.entries.foldlM (loadEntry files root now) (new s root) := rfl

theorem loadEntry_eq_ok_iff : loadEntry files root now db entry = .ok db' ↔
    ∃ t, entry.2.load now files (filePath root entry.2.relation.name) = .ok t ∧
      { db with tables := db.tables.insert entry.1 t } = db' := by
  unfold loadEntry
  rw [bind_eq_ok_iff]
  simp only [Except.ok.injEq]

theorem loadEntry_eq_error_iff {e : StorageError} : loadEntry files root now db entry = .error e ↔
    entry.2.load now files (filePath root entry.2.relation.name) = .error e := by
  unfold loadEntry
  rw [bind_eq_error_iff]
  simp

theorem tables_of_new (s : Schema) (root : Path) : (new s root).tables.All Table.Reachable := by
  refine OrderedMap.All.ofList fun e he => ?_
  obtain ⟨r, -, rfl⟩ := List.mem_map.mp he
  exact Table.reachable_new r

theorem tables_of_open (h : Database.open files s root now = .ok db) :
    db.tables.All Table.Reachable := by
  have fresh := tables_of_new s root
  rw [open_eq_foldlM] at h
  have held : ∀ e ∈ (new s root).tables.entries, e.2.Reachable := fun e he => fresh.mem_entries he
  -- the tables still to be loaded are a part of those the database began with
  generalize (new s root).tables.entries = entries at h held
  generalize new s root = start at h fresh
  induction entries generalizing start with
  | nil =>
      cases h
      exact fresh
  | cons e rest ih =>
      obtain ⟨here, held⟩ := List.forall_mem_cons.mp held
      rw [List.foldlM_cons] at h
      obtain ⟨after, done, h⟩ := bind_eq_ok_iff.mp h
      obtain ⟨t, loaded, rfl⟩ := loadEntry_eq_ok_iff.mp done
      obtain ⟨ws, rfl⟩ := Table.run_of_load loaded
      exact ih held _ h (fresh.insert _ (here.run ws))

/-- **The tables of a reachable database have come about by writes.** -/
theorem Reachable.tables (h : db.Reachable) : db.tables.All Table.Reachable := by
  induction h with
  | new s root => exact tables_of_new s root
  | opened done => exact tables_of_open done
  | wrote _ there w ih =>
      exact ih.insert _ ((ih _ _ (table_eq_ok_iff.mp there)).run [w])
  | queried _ q params explain now ih =>
      rcases runQuery_cases q _ params explain now with same | ⟨op, t, -, there, after⟩
      · rw [same]
        exact ih
      · rw [after]
        obtain ⟨ws, done⟩ := runOperation_eq_run op t params now
        rw [done]
        exact ih.insert _ ((ih _ _ (table_eq_ok_iff.mp there)).run ws)

end Database

end TemporalDB
