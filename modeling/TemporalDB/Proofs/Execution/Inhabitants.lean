import TemporalDB.Proofs.Execution.Reachable
import TemporalDB.Proofs.Table.Line
import TemporalDB.Proofs.Value

/-!
# What a column may hold, and what is read as its type

Whatever is read as a type from a field or a parameter is a value that a column of the type may
hold. Conversely, what a column holds can be read as its type, except that a decimal may have come
there with more digits than the type has: of a decimal a column checks the scale only. Main
statement: `holds_iff_reads`.
-/

namespace TemporalDB

open Text Execution

variable {type : ScalarType} {v : Value} {row : Row}

/-! ## What can be read -/

/-- The value is a decimal with more digits than the type has. -/
def Value.Exceeds : Value → ScalarType → Prop
  | .numeric raw _, .numeric precision _ => ¬ Decimal.Fits precision raw
  | _, _ => False

theorem Value.exceeds_iff {raw : Int64} {precision scale s : UInt8} :
    (numeric raw s).Exceeds (.numeric precision scale) ↔
      10 ^ precision.toNat ≤ raw.toInt.natAbs := Nat.not_lt

namespace ScalarType

theorem not_exceeds_of_readValue {s : String} (admitted : type.Admitted)
    (h : type.readValue s = .ok v) : ¬ v.Exceeds type := by
  cases type with
  | numeric precision scale =>
      obtain ⟨raw, read, rfl⟩ := elim_eq_ok_iff.mp h
      obtain ⟨le, bound⟩ : scale.toNat ≤ precision.toNat ∧ precision ≤ maxPrecision :=
        admitted_iff.mp admitted
      exact not_not_intro (Decimal.fits_of_read le bound read)
  | _ => cases v <;> exact not_false

theorem exists_readValue_timestamp (t : Instant) :
    ∃ s, timestamp.readValue s = .ok (.timestamp t) := by
  obtain ⟨s, read⟩ := t.exists_read
  exact ⟨s, elim_eq_ok_iff.mpr ⟨t, read, rfl⟩⟩

/-- Every value of a type has a literal, if it has no more digits than the type. -/
theorem exists_readValue (admitted : type.Admitted) (nonnull : v ≠ .null)
    (conforms : v.conforms type = true) (within : ¬ v.Exceeds type) :
    ∃ s, type.readValue s = .ok v := by
  cases v with
  | null => exact absurd rfl nonnull
  | integer n =>
      cases type with
      | integer => exact ⟨_, readValue_display_integer n⟩
      | _ => cases conforms
  | numeric raw scale =>
      cases type with
      | numeric precision s =>
          obtain rfl : scale = s := of_decide_eq_true conforms
          obtain ⟨le, bound⟩ : scale.toNat ≤ precision.toNat ∧ precision ≤ maxPrecision :=
            admitted_iff.mp admitted
          exact ⟨_, readValue_display_numeric le bound (not_not.mp within)⟩
      | _ => cases conforms
  | text s =>
      cases type with
      | char length | varchar length =>
          have short : ¬ length.toNat < s.length := Nat.not_lt.mpr (of_decide_eq_true conforms)
          exact ⟨s, if_neg short⟩
      | _ => cases conforms
  | timestamp t =>
      cases type with
      | timestamp => exact exists_readValue_timestamp t
      | _ => cases conforms

end ScalarType

/-! ## What passes the check of a column -/

namespace Table

variable {t : Table} {c : Column}

theorem admits_of_readField {field : String} (h : readField c field = .ok v) : c.Admits v := by
  cases readField_eq_ok_iff.mp h with
  | nothing nullable plain =>
      refine ⟨rfl, fun notNull => ?_⟩
      rw [nullable] at notNull
      cases notNull
  | value given read =>
      obtain ⟨conforms, nonnull⟩ := ScalarType.conforms_of_readValue read
      exact ⟨conforms, fun _ => nonnull⟩

/-- A parameter of the type of a column gives a value that the column may hold. -/
theorem admits_of_bindValue {params : List String} {i : Nat}
    (h : bindValue params (.param i c.type) = .ok v) : c.Admits v := by
  unfold bindValue at h
  dsimp only at h
  split at h
  · cases h
  · obtain ⟨conforms, nonnull⟩ := ScalarType.conforms_of_readValue (mapError_eq_ok_iff.mp h)
    exact ⟨conforms, fun _ => nonnull⟩

/-! ## What is stored -/

/-- The table stores a row, be it in a version that was closed. -/
def Stores (t : Table) (row : Row) : Prop :=
  match t.rows with
  | .temporal chains => ∃ k c, chains.find? k = some c ∧ ∃ v ∈ c.versions, v.row = row
  | .conventional rows => ∃ k, rows.find? k = some row

/-- **Every row that a reachable table stores fits its relation.** -/
theorem Reachable.admits (h : t.Reachable) (stored : t.Stores row) : t.relation.Admits row := by
  have owns := h.owns none
  obtain ⟨ws, came⟩ := h
  obtain ⟨r, chains | rows⟩ := t
  · -- a run of writes to a conventional table leaves no chains
    have temporal : r.temporal = true := by
      have kind := (changesOnly_run (new r) ws).kind
      rw [← came, isTemporal_new] at kind
      exact kind.symm
    obtain ⟨chains', run, rows⟩ := rows_of_run temporal ws
    obtain ⟨k, c, found, v, hv, rfl⟩ := stored
    have same : chains = chains' := by
      rw [run] at came
      injection came with _ same
      injection same
    exact (rows k c (same ▸ found) v (List.mem_reverse.mp hv)).1
  · obtain ⟨k, found⟩ := stored
    exact (owns k row found).1

end Table

/-! ## What a column can come to hold -/

/-- A column of the type can come to hold the value: in some database that is opened, written to and
asked, a table stores a row with the value in such a column. -/
def ScalarType.Holds (type : ScalarType) (v : Value) : Prop :=
  ∃ (db : Database) (name : String) (t : Table) (row : Row) (i : Nat) (c : Column),
    db.Reachable ∧ db.table name = .ok t ∧ t.Stores row ∧ t.relation.columns[i]? = some c ∧
      c.type = type ∧ row[i]? = some v

namespace ScalarType

def single (type : ScalarType) : Relation := ⟨"t", [⟨"v", type, false⟩], [0], false⟩

def fresh (type : ScalarType) : Database := .new ⟨[type.single]⟩ ⟨"tbl"⟩

def putting (type : ScalarType) (v : Value) : QueryProgram :=
  ⟨0, "t", .execute (.insert [(0, .const type v)])⟩

def filled (type : ScalarType) (v : Value) : Table :=
  ⟨type.single, .conventional (OrderedMap.empty.insert [v] [v])⟩

theorem table_fresh (type : ScalarType) : type.fresh.table "t" = .ok (.new type.single) :=
  Database.table_eq_ok_iff.mpr OrderedMap.find?_insert_self

theorem admits_single (h : v.conforms type = true) : type.single.Admits [v] := by
  refine ⟨rfl, fun i c w hc hw => ?_⟩
  cases i with
  | zero =>
      cases hc
      cases hw
      exact ⟨h, fun notNull => absurd notNull Bool.false_ne_true⟩
  | succ i => cases hc

theorem insert_single (h : v.conforms type = true) (now : Instant) :
    (Table.new type.single).insert [v] now = .ok (type.filled v) := by
  have fits : (Table.new type.single).checkRow [v] = .ok () :=
    Table.checkRow_eq_ok_iff.mpr (admits_single h)
  rw [Table.insert_eq, fits]
  rfl

theorem runOperation_putting (h : v.conforms type = true) (now : Instant) :
    (runOperation (.insert [(0, .const type v)]) (.new type.single) [] now).2 =
      type.filled v := by
  have made : insertedRow (.new type.single) []
      (.replicate (Table.new type.single).relation.arity .null) [(0, .const type v)] =
        .ok [v] := rfl
  simp only [runOperation_insert, made, insert_single h]

theorem holds_of_conforms (h : v.conforms type = true) : type.Holds v := by
  have ran : (runQuery (type.putting v) type.fresh [] false .first).2 = type.fresh.setTable "t"
      (type.filled v) := by
    rw [runQuery_eq]
    simp only [putting, table_fresh, runOperation_putting h]
    rfl
  have reachable := (Database.Reachable.new ⟨[type.single]⟩ ⟨"tbl"⟩).queried (type.putting v) []
    false .first
  refine ⟨_, "t", type.filled v, [v], 0, ⟨"v", type, false⟩, reachable, ?_, ?_, rfl, rfl, rfl⟩
  · show (runQuery (type.putting v) type.fresh [] false .first).2.table "t" = _
    rw [ran]
    exact Database.table_eq_ok_iff.mpr OrderedMap.find?_insert_self
  · exact ⟨[v], OrderedMap.find?_insert_self⟩

/-- **What a column can come to hold is what conforms to its type.** -/
theorem holds_iff : type.Holds v ↔ v.conforms type = true := by
  constructor
  · rintro ⟨db, name, t, row, i, c, reachable, there, stored, column, rfl, cell⟩
    have came := reachable.tables _ _ (Database.table_eq_ok_iff.mp there)
    exact ((came.admits stored).2 i c v column cell).1
  · exact holds_of_conforms

/-- **A column checks all but the number of a decimal's digits.** For every type that a declaration
can give:

- the values that are read as the type are those that conform to it and, if they are decimals, have
  no more digits than the type;
- what is read for a column, from a field of a table's file or from a parameter of the column's
  type, passes the column's check;
- what a column can come to hold, whatever the programs are that write to it, is what conforms to
  its type. So it can be read as the type, unless it is a decimal with too many digits. -/
theorem holds_iff_reads (admitted : type.Admitted) :
    (∀ v ≠ .null, (∃ s, type.readValue s = .ok v) ↔
      v.conforms type = true ∧ ¬ v.Exceeds type) ∧
    (∀ (table : String) (c : Column) (v : Value), c.type = type →
      (∀ field, Table.readField c field = .ok v → Table.checkValue table c v = .ok ()) ∧
      ∀ params i, bindValue params (.param i type) = .ok v → Table.checkValue table c v = .ok ()) ∧
    (∀ v, type.Holds v ↔ v.conforms type = true) ∧
    ∀ v ≠ .null, type.Holds v → ((∃ s, type.readValue s = .ok v) ↔ ¬ v.Exceeds type) := by
  have reads : ∀ v ≠ .null, (∃ s, type.readValue s = .ok v) ↔
      v.conforms type = true ∧ ¬ v.Exceeds type := by
    intro v nonnull
    constructor
    · rintro ⟨s, read⟩
      exact ⟨(conforms_of_readValue read).1, not_exceeds_of_readValue admitted read⟩
    · rintro ⟨conforms, within⟩
      exact exists_readValue admitted nonnull conforms within
  refine ⟨reads, ?_, fun v => holds_iff, ?_⟩
  · rintro table c v rfl
    refine ⟨fun field read => ?_, fun params i bound => ?_⟩
    · exact Table.checkValue_eq_ok_iff.mpr (Table.admits_of_readField read)
    · exact Table.checkValue_eq_ok_iff.mpr (Table.admits_of_bindValue bound)
  · intro v nonnull held
    rw [reads v nonnull, holds_iff.mp held, eq_self, true_and]

/-- Of a type of two digits, 99 can be read, and 100 can be held only. -/
theorem holds_iff_reads_two_digits : (numeric 2 0).Admitted ∧
    (∃ s, (numeric 2 0).readValue s = .ok (.numeric 99 0)) ∧ (numeric 2 0).Holds (.numeric 100 0) ∧
    ¬ ∃ s, (numeric 2 0).readValue s = .ok (.numeric 100 0) := by
  have admitted : (numeric 2 0).Admitted := by decide
  obtain ⟨reads, -, holds, -⟩ := holds_iff_reads admitted
  have within : ¬ (Value.numeric 99 0).Exceeds (numeric 2 0) :=
    fun exceeds => absurd (Value.exceeds_iff.mp exceeds) (by decide)
  have exceeds : (Value.numeric 100 0).Exceeds (numeric 2 0) := Value.exceeds_iff.mpr (by decide)
  refine ⟨admitted, ?_, (holds _).mpr rfl, ?_⟩
  · exact (reads _ (by decide)).mpr ⟨rfl, within⟩
  · exact fun read => ((reads _ (by decide)).mp read).2 exceeds

def counts : Relation :=
  ⟨"t", [⟨"a", .integer, true⟩, ⟨"n", .numeric 2 0, false⟩], [0], false⟩

/-- Inserts a count, and takes its parameter for a decimal of eighteen digits. -/
def overcounting : QueryProgram :=
  ⟨2, "t", .execute (.insert [(0, .param 0 .integer), (1, .param 1 (.numeric 18 0))])⟩

/-- **A column takes a decimal that its type could not have given.** The program of an insertion
whose parameter may have more digits than the column stores a thousand where no text is read as more
than 99. -/
theorem column_outgrows_type : (numeric 2 0).Admitted ∧
    (Value.numeric 1000 0).conforms (numeric 2 0) = true ∧
    (∀ s, (numeric 2 0).readValue s ≠ .ok (.numeric 1000 0)) ∧
    let ran := runQuery overcounting (.new ⟨[counts]⟩ ⟨"tbl"⟩) ["1", "1000"] false .first
    ran.1 = .ok (.affected 1) ∧
      (ran.2.table "t").map (·.scan none) = .ok [[.integer 1, .numeric 1000 0]] := by
  have admitted : (numeric 2 0).Admitted := by decide
  have exceeds : (Value.numeric 1000 0).Exceeds (numeric 2 0) := Value.exceeds_iff.mpr (by decide)
  refine ⟨admitted, rfl, fun s read => ?_, by decide +kernel, by decide +kernel⟩
  exact not_exceeds_of_readValue admitted read exceeds

end ScalarType

end TemporalDB
