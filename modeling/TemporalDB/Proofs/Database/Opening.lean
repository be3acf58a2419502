import TemporalDB.Proofs.Execution.Opened
import TemporalDB.Proofs.Table.Loading

/-!
# Opening a database

A database opens if the file of every relation can be loaded, and its tables hold the rows of their
files. Otherwise it fails on the first relation, in the order of the names, whose file cannot be
loaded. Main statement: `open_exact`.
-/

namespace TemporalDB

open Text

/-- The lines of a file that can be read as a text. A file that is not there has none. -/
inductive FileLines (files : FileTree) (path : Path) : List (List Char) → Prop
  | absent (missing : files.readText path = .error .notFound) : FileLines files path []
  | present {contents : String} (read : files.readText path = .ok contents) :
      FileLines files path (lines contents.toList)

/-- The error of a relation's file: it is there and cannot be read, or has a line at fault. -/
inductive FileFault (files : FileTree) (path : Path) (r : Relation) : StorageError → Prop
  | unreadable {cause : IoError} (there : cause ≠ .notFound)
      (unread : files.readText path = .error cause) :
      FileFault files path r (.unreadable path cause)
  | malformed {lines : List (List Char)} {number : Nat} {fault : RowFault}
      (read : FileLines files path lines) (fails : r.FailsAt lines number fault) :
      FileFault files path r (.malformedRow path number fault)

theorem FileLines.unique {files : FileTree} {path : Path} {lines lines' : List (List Char)}
    (h : FileLines files path lines) (h' : FileLines files path lines') : lines = lines' := by
  cases h with
  | absent missing =>
      cases h' with
      | absent => rfl
      | present read => rw [missing] at read; cases read
  | present read =>
      cases h' with
      | absent missing => rw [missing] at read; cases read
      | present read' => rw [Except.ok.inj (read.symm.trans read')]

theorem FileFault.not_loadable {files : FileTree} {path : Path} {r : Relation} {e : StorageError}
    {lines : List (List Char)} (h : FileFault files path r e) (read : FileLines files path lines) :
    ¬ r.Loadable lines := by
  cases h with
  | unreadable there unread =>
      cases read with
      | absent missing => exact absurd (Except.error.inj (unread.symm.trans missing)) there
      | present read => rw [unread] at read; cases read
  | @malformed lines' number fault read' fails =>
      intro loadable
      rw [read.unique read', ← List.take_append_drop number lines'] at loadable
      exact fails.least.1 (Table.loadable_of_append loadable)

namespace Table

variable {r : Relation} {files : FileTree} {path : Path} {now : Instant} {t : Table}
  {e : StorageError}

/-- **The file of a list of rows is loaded exactly.** -/
theorem holds_of_load (h : (new r).load now files path = .ok t) :
    ∃ lines rows, FileLines files path lines ∧ r.Lists lines rows ∧ Holds r now rows t := by
  unfold load at h
  split at h
  · next missing =>
      have none : (new r).loadLines now 1 [] = .ok t := by
        rw [loadLines, Except.ok.inj h]
      obtain ⟨rows, lists, holds⟩ := holds_of_loadLines none
      exact ⟨[], rows, .absent missing, lists, holds⟩
  · cases h
  · next contents read =>
      obtain ⟨rows, lists, holds⟩ := holds_of_loadLines (mapError_eq_ok_iff.mp h)
      exact ⟨_, rows, .present read, lists, holds⟩

/-- A file cannot be loaded if it cannot be read, or if a line is at fault. -/
theorem fileFault_of_load (h : (new r).load now files path = .error e) :
    FileFault files path r e := by
  unfold load at h
  split at h
  · cases h
  · next cause there unread =>
      cases h
      exact .unreadable there unread
  · next contents read =>
      obtain ⟨⟨number, fault⟩, failed, rfl⟩ := mapError_eq_error_iff.mp h
      exact .malformed (.present read) (failsAt_of_loadLines_new failed)

end Table

namespace Database

variable {files : FileTree} {s : Schema} {root : Path} {now : Instant} {db db' : Database}
  {entries : List (String × Table)} {e : StorageError}

/-- Tables that are loaded under different names are each found under its name. -/
theorem find?_foldlM_loadEntry (distinct : (entries.map (·.1)).Nodup)
    (h : entries.foldlM (loadEntry files root now) db = .ok db') :
    (∀ entry ∈ entries, ∃ t, entry.2.load now files (filePath root entry.2.relation.name) = .ok t ∧
      db'.tables.find? entry.1 = some t) ∧
    ∀ name ∉ entries.map (·.1), db'.tables.find? name = db.tables.find? name := by
  induction entries generalizing db with
  | nil =>
      cases h
      exact ⟨List.forall_mem_nil _, fun _ _ => rfl⟩
  | cons entry rest ih =>
      rw [List.map_cons, List.nodup_cons] at distinct
      rw [List.foldlM_cons] at h
      obtain ⟨after, done, h⟩ := bind_eq_ok_iff.mp h
      obtain ⟨t, loaded, rfl⟩ := loadEntry_eq_ok_iff.mp done
      obtain ⟨found, others⟩ := ih distinct.2 h
      refine ⟨List.forall_mem_cons.mpr ⟨⟨t, loaded, ?_⟩, found⟩, ?_⟩
      · -- the tables behind it have other names
        rw [others _ distinct.1]
        exact OrderedMap.find?_insert_self
      · intro name other
        rw [List.map_cons, List.mem_cons, not_or] at other
        rw [others name other.2]
        exact OrderedMap.find?_insert_of_ne other.1

/-- At first the tables are those of the relations, without rows, under the relations' names. -/
theorem mem_entries_new (differ : NamesDiffer (s.relations.map (·.name)))
    {entry : String × Table} : entry ∈ (new s root).tables.entries ↔
      ∃ r ∈ s.relations, (foldCase r.name, Table.new r) = entry := by
  rw [← OrderedMap.find?_eq_some_iff]
  constructor
  · intro found
    exact List.mem_map.mp (OrderedMap.mem_of_find?_ofList found)
  · intro held
    exact OrderedMap.find?_ofList_of_mem (nodup_keys differ) (List.mem_map.mpr held)

/-- The file of a relation can be read and loaded. -/
def Loads (files : FileTree) (root : Path) (r : Relation) : Prop :=
  ∃ lines, FileLines files (filePath root r.name) lines ∧ r.Loadable lines

theorem nodup_names (h : entries.Pairwise fun a b => compare a.1 b.1 = .lt) :
    (entries.map (·.1)).Nodup :=
  OrderedMap.nodup_of_ascending (List.pairwise_map.mpr h)

/-- **The tables of a database that was opened hold the rows of their files.** -/
theorem holds_of_open (differ : NamesDiffer (s.relations.map (·.name)))
    (h : Database.open files s root now = .ok db) {r : Relation} (hr : r ∈ s.relations) :
    ∃ lines rows t, FileLines files (filePath root r.name) lines ∧ r.Lists lines rows ∧
      db.table r.name = .ok t ∧ Table.Holds r now rows t := by
  rw [open_eq_foldlM] at h
  obtain ⟨found, -⟩ :=
    find?_foldlM_loadEntry (nodup_names (new s root).tables.ascending) h
  obtain ⟨t, loaded, there⟩ := found _ ((mem_entries_new differ).mpr ⟨r, hr, rfl⟩)
  obtain ⟨lines, rows, read, lists, holds⟩ := Table.holds_of_load loaded
  exact ⟨lines, rows, t, read, lists, table_eq_ok_iff.mpr there, holds⟩

/-- **A database fails to open on the first file that cannot be loaded.** -/
theorem fileFault_of_open (differ : NamesDiffer (s.relations.map (·.name)))
    (h : Database.open files s root now = .error e) :
    ∃ r ∈ s.relations, FileFault files (filePath root r.name) r e ∧
      ∀ other ∈ s.relations, compare (foldCase other.name) (foldCase r.name) = .lt →
        Loads files root other := by
  rw [open_eq_foldlM] at h
  obtain ⟨before, entry, after, db', split, done, failed⟩ := foldlM_eq_error h
  have ascending := (new s root).tables.ascending
  have here : entry ∈ (new s root).tables.entries :=
    split ▸ List.mem_append_right _ List.mem_cons_self
  obtain ⟨r, hr, rfl⟩ := (mem_entries_new differ).mp here
  have failed := loadEntry_eq_error_iff.mp failed
  refine ⟨r, hr, Table.fileFault_of_load failed, ?_⟩
  · intro other hother earlier
    have there : (foldCase other.name, Table.new other) ∈ (new s root).tables.entries :=
      (mem_entries_new differ).mpr ⟨other, hother, rfl⟩
    rw [split] at ascending there
    obtain ⟨first, rest, -⟩ := List.pairwise_append.mp ascending
    rcases List.mem_append.mp there with loaded | behind
    · obtain ⟨found, -⟩ := find?_foldlM_loadEntry (nodup_names first) done
      obtain ⟨t, loaded, -⟩ := found _ loaded
      obtain ⟨lines, rows, read, lists, -⟩ := Table.holds_of_load loaded
      exact ⟨lines, read, rows, lists⟩
    · -- what stands at the entry or behind it has no smaller name
      exfalso
      rcases List.mem_cons.mp behind with same | behind
      · rw [(Prod.mk.inj same).1, Std.ReflOrd.compare_self] at earlier
        cases earlier
      · have later := (List.pairwise_cons.mp rest).1 _ behind
        dsimp only at later
        rw [Std.OrientedOrd.eq_swap, earlier] at later
        cases later

/-- **Opening is exact.** A database of a schema that was read opens if the file of each relation
can be loaded, and only then: if it can be read or is not there, each of its lines that is not blank
spells a row, and no two of the rows have one key. It then has just the tables of the schema. Each
holds the rows of its file in the order of their keys, as many as there are lines that are not
blank, and a temporal table has one version of each row, which began when the database was opened
and is open. Otherwise the error is that of the first relation, in the order of the names, whose
file cannot be loaded: of the file if it is there and cannot be read, or else of the line with the
least number such that the lines up to it cannot be loaded. -/
theorem open_exact {text : String} (hs : Sql.parseSchema text = .ok s) (files : FileTree)
    (root : Path) (now : Instant) :
    ((∃ db, Database.open files s root now = .ok db) ↔ ∀ r ∈ s.relations, Loads files root r) ∧
    (∀ db, Database.open files s root now = .ok db → db.Realizes s ∧ ∀ r ∈ s.relations,
      ∃ lines rows t, FileLines files (filePath root r.name) lines ∧ r.Lists lines rows ∧
        db.table r.name = .ok t ∧ Table.Holds r now rows t ∧
        t.physicalSize = (written lines).length) ∧
    ∀ e, Database.open files s root now = .error e → ∃ r ∈ s.relations,
      FileFault files (filePath root r.name) r e ∧
      ∀ other ∈ s.relations, compare (foldCase other.name) (foldCase r.name) = .lt →
        Loads files root other := by
  have differ := (Sql.declared_of_parseSchema hs).names
  refine ⟨⟨?_, ?_⟩, fun db h => ⟨(OpenedOn.opened h).realizes differ, fun r hr => ?_⟩,
    fun e h => fileFault_of_open differ h⟩
  · rintro ⟨db, h⟩ r hr
    obtain ⟨lines, rows, t, read, lists, -⟩ := holds_of_open differ h hr
    exact ⟨lines, read, rows, lists⟩
  · intro loads
    cases h : Database.open files s root now with
    | ok db => exact ⟨db, rfl⟩
    | error e =>
        obtain ⟨r, hr, fault, -⟩ := fileFault_of_open differ h
        obtain ⟨lines, read, loadable⟩ := loads r hr
        exact absurd loadable (fault.not_loadable read)
  · obtain ⟨lines, rows, t, read, lists, there, holds⟩ := holds_of_open differ h hr
    exact ⟨lines, rows, t, read, lists, there, holds,
      holds.stored.trans lists.spelled.length_eq.symm⟩

def cratesText : String :=
  "CREATE TABLE crate (id INTEGER PRIMARY KEY, weight INTEGER) WITH SYSTEM VERSIONING"

def crates : Schema := ⟨[{ Table.crate with temporal := true }]⟩

/-- A directory with a file of crates, not in the order of their keys, one of them without a
weight. -/
def crateFiles : FileTree :=
  ⟨[], .ofList [(["tbl"], .directory), (["tbl", "crate.tbl"], .file "2||\n \n1|7\n".toUTF8)]⟩

theorem open_exact_crates : Sql.parseSchema cratesText = .ok crates ∧
    ∃ db t, Database.open crateFiles crates ⟨"tbl"⟩ .first = .ok db ∧
      db.table "crate" = .ok t ∧ t.physicalSize = 2 := by
  have declared : Sql.parseSchema cratesText = .ok crates := by decide +kernel
  have opens : (Database.open crateFiles crates ⟨"tbl"⟩ .first).isOk = true := by decide +kernel
  have read : crateFiles.readText (filePath ⟨"tbl"⟩ "crate") = .ok "2||\n \n1|7\n" := by
    decide +kernel
  cases h : Database.open crateFiles crates ⟨"tbl"⟩ .first with
  | error e =>
      rw [h] at opens
      cases opens
  | ok db =>
      obtain ⟨-, held⟩ := (open_exact declared crateFiles ⟨"tbl"⟩ .first).2.1 db h
      obtain ⟨lines, rows, t, found, -, there, -, size⟩ := held _ List.mem_cons_self
      rw [found.unique (.present read)] at size
      exact ⟨declared, db, t, rfl, there, size⟩

end Database

end TemporalDB
