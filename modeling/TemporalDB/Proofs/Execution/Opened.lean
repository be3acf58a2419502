import TemporalDB.Proofs.Execution.Reachable
import TemporalDB.Proofs.Sql.Declarations

/-!
# Databases opened on a schema

A database that was opened on a schema has a table for every relation of the schema, and whatever is
written to it, each table stays one of its relation.
-/

namespace TemporalDB

open Text Execution

/-- The database has been opened on a schema and written to. -/
inductive Database.OpenedOn (s : Schema) : Database → Prop
  | new (root : Path) : OpenedOn s (.new s root)
  | opened {files : FileTree} {root : Path} {now : Instant} {db : Database}
      (done : Database.open files s root now = .ok db) : OpenedOn s db
  | wrote {db : Database} {name : String} {t : Table} (before : OpenedOn s db)
      (there : db.table name = .ok t) (w : Write) : OpenedOn s (db.setTable name (t.perform w).2)
  | queried {db : Database} (before : OpenedOn s db) (q : QueryProgram) (params : List String)
      (explain : Bool) (now : Instant) : OpenedOn s (runQuery q db params explain now).2

namespace Database

variable {s : Schema} {db : Database} {name : String} {t t' : Table} {r : Relation}

/-- A database that was opened on a schema is one that can be reached. -/
theorem OpenedOn.reachable (h : db.OpenedOn s) : db.Reachable := by
  induction h with
  | new root => exact .new s root
  | opened done => exact .opened done
  | wrote before there w ih => exact .wrote ih there w
  | queried before q params explain now ih => exact .queried ih q params explain now

def relationAt (db : Database) (name : String) : Option Relation :=
  (db.tables.find? name).map (·.relation)

/-- A table in the place of one of the same relation changes no relation. -/
theorem relationAt_insert {tables : OrderedMap String Table} (there : tables.find? name = some t)
    (same : t'.relation = t.relation) (other : String) :
    ((tables.insert name t').find? other).map (·.relation) =
      (tables.find? other).map (·.relation) := by
  by_cases h : other = name
  · rw [h, OrderedMap.find?_insert_self, there]
    exact congrArg some same
  · rw [OrderedMap.find?_insert_of_ne h]

/-- Tables that are loaded, each in its own place, change no relation. -/
theorem relationAt_foldlM {files : FileTree} {root : Path} {now : Instant}
    {entries : List (String × Table)}
    (held : ∀ e ∈ entries, db.relationAt e.1 = some e.2.relation) {db' : Database}
    (h : entries.foldlM (loadEntry files root now) db = .ok db') (name : String) :
    db'.relationAt name = db.relationAt name := by
  induction entries generalizing db with
  | nil =>
      cases h
      rfl
  | cons e rest ih =>
      obtain ⟨here, held⟩ := List.forall_mem_cons.mp held
      rw [List.foldlM_cons] at h
      obtain ⟨after, done, h⟩ := bind_eq_ok_iff.mp h
      obtain ⟨t, loaded, rfl⟩ := loadEntry_eq_ok_iff.mp done
      obtain ⟨ws, rfl⟩ := Table.run_of_load loaded
      obtain ⟨t₀, there, relation⟩ := Option.map_eq_some_iff.mp here
      have kept : ∀ other, relationAt ⟨db.root, db.tables.insert e.1 (e.2.run ws)⟩ other =
          db.relationAt other := by
        refine relationAt_insert there ?_
        rw [(Table.changesOnly_run e.2 ws).relation, relation]
      -- the tables still to be loaded are held as before
      rw [ih (fun e' he' => (kept e'.1).trans (held e' he')) h, kept]

theorem relationAt_open {files : FileTree} {root : Path} {now : Instant}
    (h : Database.open files s root now = .ok db) (name : String) :
    db.relationAt name = (new s root).relationAt name := by
  rw [open_eq_foldlM] at h
  refine relationAt_foldlM ?_ h name
  intro e he
  rw [relationAt, OrderedMap.find?_eq_some_iff.mpr he]
  rfl

theorem OpenedOn.relationAt_eq (h : db.OpenedOn s) (name : String) :
    db.relationAt name = (Database.new s db.root).relationAt name := by
  induction h generalizing name with
  | new root => rfl
  | opened done => exact relationAt_open done name
  | @wrote db name' t before there w ih =>
      refine (relationAt_insert (table_eq_ok_iff.mp there) ?_ name).trans (ih name)
      exact (Table.changesOnly_perform t w).relation
  | @queried db before q params explain now ih =>
      rcases runQuery_cases q db params explain now with same | ⟨op, t, -, there, after⟩
      · rw [same]
        exact ih name
      · rw [after]
        obtain ⟨ws, done⟩ := runOperation_eq_run op t params now
        refine (relationAt_insert (table_eq_ok_iff.mp there) ?_ name).trans (ih name)
        rw [done]
        exact (Table.changesOnly_run t ws).relation

/-- Relations whose names differ have different keys in the map of tables. -/
theorem nodup_foldCase {names : List String} (h : NamesDiffer names) :
    (names.map foldCase).Nodup := by
  rw [List.nodup_iff_pairwise_ne, List.pairwise_map]
  exact h.imp fun hab same => by simp [sameName, same] at hab

/-- The tables of a schema have different keys if the names of the relations differ. -/
theorem nodup_keys (differ : NamesDiffer (s.relations.map (·.name))) :
    ((s.relations.map fun r => (foldCase r.name, Table.new r)).map (·.1)).Nodup := by
  have nodup := nodup_foldCase differ
  rwa [List.map_map] at nodup ⊢

/-- At first the table under a name is that of the relation of the name. -/
theorem relationAt_new (differ : NamesDiffer (s.relations.map (·.name))) (root : Path)
    (name : String) : (new s root).relationAt (foldCase name) = s.relation? name := by
  cases hr : s.relation? name with
  | some r =>
      have mem : r ∈ s.relations := List.mem_of_find?_eq_some hr
      have same : foldCase r.name = foldCase name := by
        simpa [sameName] using List.find?_some hr
      have found := OrderedMap.find?_ofList_of_mem (nodup_keys differ)
        (List.mem_map.mpr ⟨r, mem, rfl⟩)
      dsimp only at found
      rw [same] at found
      rw [relationAt, new, found]
      rfl
  | none =>
      cases found : (new s root).tables.find? (foldCase name) with
      | none =>
          rw [relationAt, found]
          rfl
      | some t =>
          obtain ⟨r, mem, entry⟩ := List.mem_map.mp (OrderedMap.mem_of_find?_ofList found)
          have other := List.find?_eq_none.mp hr r mem
          simp [sameName, (Prod.mk.inj entry).1] at other

/-- **A database that was opened on a schema has a table of each of its relations**, if their names
differ. -/
theorem OpenedOn.exists_table (h : db.OpenedOn s) (differ : NamesDiffer (s.relations.map (·.name)))
    (hr : r ∈ s.relations) : ∃ t, db.table r.name = .ok t ∧ t.relation = r := by
  have fresh : (Database.new s db.root).tables.find? (foldCase r.name) = some (Table.new r) :=
    OrderedMap.find?_ofList_of_mem (e := (foldCase r.name, Table.new r)) (nodup_keys differ)
      (List.mem_map.mpr ⟨r, hr, rfl⟩)
  have kept := h.relationAt_eq (foldCase r.name)
  rw [relationAt, relationAt, fresh] at kept
  obtain ⟨t, there, relation⟩ := Option.map_eq_some_iff.mp kept
  exact ⟨t, table_eq_ok_iff.mpr there, relation⟩

/-! ## The tables of a schema -/

/-- The tables of a database are those of a schema: one for each relation, of the kind that it asks
for, and found by its name. -/
structure Realizes (db : Database) (s : Schema) : Prop where
  relations : (db.tables.values.map (·.relation)).Perm s.relations
  named : ∀ name, (db.table? name).map (·.relation) = s.relation? name
  kind : ∀ t ∈ db.tables.values, t.isTemporal = t.relation.temporal

/-- **A database that was opened on a schema has just its tables**, if their names differ. -/
theorem OpenedOn.realizes (h : db.OpenedOn s) (differ : NamesDiffer (s.relations.map (·.name))) :
    db.Realizes s := by
  refine ⟨?_, ?_, ?_⟩
  · -- The relations stand under the names that they stood under at first.
    have same : db.tables.filterMap (some ∘ Table.relation) =
        (Database.new s db.root).tables.filterMap (some ∘ Table.relation) := by
      apply OrderedMap.ext
      intro name
      rw [OrderedMap.find?_filterMap, OrderedMap.find?_filterMap, ← Option.map_eq_bind,
        ← Option.map_eq_bind]
      exact h.relationAt_eq name
    have values := congrArg OrderedMap.values same
    rw [OrderedMap.values_filterMap, OrderedMap.values_filterMap, List.filterMap_eq_map] at values
    rw [values]
    have fresh := (OrderedMap.values_ofList_perm (nodup_keys differ)).map (·.relation)
    have mapped : (s.relations.map fun r => (foldCase r.name, Table.new r)).map
        (Table.relation ∘ Prod.snd) = s.relations := by
      rw [List.map_map]
      exact List.map_id s.relations
    rw [List.map_map] at fresh
    exact mapped ▸ fresh
  · intro name
    exact (h.relationAt_eq (foldCase name)).trans (relationAt_new differ db.root name)
  · intro t ht
    obtain ⟨e, he, rfl⟩ := List.mem_map.mp ht
    obtain ⟨ws, came⟩ := h.reachable.tables.mem_entries he
    rw [came, (Table.changesOnly_run _ ws).kind, Table.isTemporal_new,
      (Table.changesOnly_run _ ws).relation]
    rfl

/-! ## Files that cannot be loaded -/

/-- The error is that of a table's file: it cannot be read, or has no row on some line. -/
def IsFileError (path : Path) (e : StorageError) : Prop :=
  (∃ cause, e = .unreadable path cause) ∨ ∃ line fault, e = .malformedRow path line fault

theorem isFileError_of_load {files : FileTree} {path : Path} {now : Instant} {e : StorageError}
    (h : t.load now files path = .error e) : IsFileError path e := by
  unfold Table.load at h
  split at h
  · cases h
  · next cause _ _ =>
      cases h
      exact Or.inl ⟨cause, rfl⟩
  · next contents _ =>
      obtain ⟨fault, -, rfl⟩ := mapError_eq_error_iff.mp h
      exact Or.inr ⟨fault.1, fault.2, rfl⟩

/-- A database fails to open on the file of one of its relations. -/
theorem exists_of_open_eq_error {files : FileTree} {root : Path} {now : Instant} {e : StorageError}
    (h : Database.open files s root now = .error e) :
    ∃ r ∈ s.relations, IsFileError (filePath root r.name) e := by
  rw [open_eq_foldlM] at h
  obtain ⟨db, ⟨name, t⟩, hentry, failed⟩ := exists_of_foldlM_eq_error h
  have added := OrderedMap.mem_of_find?_ofList (OrderedMap.find?_eq_some_iff.mpr hentry)
  obtain ⟨r, hr, same⟩ := List.mem_map.mp added
  obtain ⟨-, rfl⟩ := Prod.mk.inj same
  have failed := loadEntry_eq_error_iff.mp failed
  exact ⟨r, hr, isFileError_of_load failed⟩

/-- A database opens where there are no files of its tables. -/
theorem exists_open_of_missing {files : FileTree} {root : Path} {now : Instant}
    (missing : ∀ r ∈ s.relations, files.readText (filePath root r.name) = .error .notFound) :
    ∃ db, Database.open files s root now = .ok db := by
  cases h : Database.open files s root now with
  | ok db => exact ⟨db, rfl⟩
  | error e =>
      rw [open_eq_foldlM] at h
      obtain ⟨db, ⟨name, t⟩, hentry, failed⟩ := exists_of_foldlM_eq_error h
      have added := OrderedMap.mem_of_find?_ofList (OrderedMap.find?_eq_some_iff.mpr hentry)
      obtain ⟨r, hr, same⟩ := List.mem_map.mp added
      obtain ⟨-, rfl⟩ := Prod.mk.inj same
      have failed := loadEntry_eq_error_iff.mp failed
      unfold Table.load at failed
      rw [show (Table.new r).relation = r from rfl, missing r hr] at failed
      cases failed

end Database

end TemporalDB
