import Mathlib.Data.List.Induction
import Mathlib.Order.Bounds.Defs
import TemporalDB.Proofs.Table.History
import TemporalDB.Proofs.Table.Identity
import TemporalDB.Proofs.Table.Line

/-!
# Tables that are loaded

The lines of a file are loaded into a table without rows if each of them that is not blank spells a
row and no two of the rows have one key. The table then holds just these rows, in the order of their
keys, whatever their order in the file. If the lines cannot be loaded, the number of the fault is
that of the first line with which they cannot.
-/

namespace TemporalDB

open Text

def written (lines : List (List Char)) : List (List Char) :=
  lines.filter fun line => !(trim line).isEmpty

namespace Relation

/-- The lines are a list of rows: each that is not blank spells the next row, and no two rows have
one key. -/
structure Lists (r : Relation) (lines : List (List Char)) (rows : List Row) : Prop where
  spelled : List.Forall₂ r.Spells (written lines) rows
  distinct : (rows.map r.keyOf).Nodup

/-- The lines are some list of rows. -/
def Loadable (r : Relation) (lines : List (List Char)) : Prop := ∃ rows, r.Lists lines rows

/-- The lines with the first few numbers are a list of rows up to the one before the last, and that
is at fault: it is no row, or one with a key that is taken. -/
structure FailsAt (r : Relation) (lines : List (List Char)) (number : Nat) (fault : RowFault) :
    Prop where
  least : IsLeast {n | ¬ r.Loadable (lines.take n)} number
  fault : ∃ line ∈ (lines.take number).getLast?, Table.readRow r line = .error fault ∨
    ∃ row, r.Spells line row ∧ fault = .refused (.duplicateKey r.name (r.keyOf row))

end Relation

namespace Table

variable {r : Relation} {now : Instant} {rows before : List Row} {row : Row} {number : Nat}
  {line : List Char} {lines earlier later : List (List Char)} {t : Table} {fault : RowFault}
  {k : Key}

/-! ## The table that holds some rows -/

section UnderKeys

variable {ν : Type} {f : Row → ν}

def underKeys (r : Relation) (f : Row → ν) (rows : List Row) : OrderedMap Key ν :=
  .ofList (rows.map fun row => (r.keyOf row, f row))

theorem underKeys_append_singleton : underKeys r f (rows ++ [row]) =
    (underKeys r f rows).insert (r.keyOf row) (f row) := by
  unfold underKeys
  rw [List.map_append]
  exact OrderedMap.ofList_append_singleton

theorem find?_underKeys_eq_none_iff : (underKeys r f rows).find? k = none ↔
    k ∉ rows.map r.keyOf := by
  unfold underKeys
  rw [OrderedMap.find?_ofList_eq_none_iff, List.map_map]
  rfl

theorem exists_of_find?_underKeys {v : ν} (h : (underKeys r f rows).find? k = some v) :
    ∃ row ∈ rows, r.keyOf row = k ∧ v = f row := by
  obtain ⟨row, hrow, entry⟩ := List.mem_map.mp (OrderedMap.mem_of_find?_ofList h)
  obtain ⟨same, rfl⟩ := Prod.mk.inj entry
  exact ⟨row, hrow, same, rfl⟩

theorem find?_underKeys (distinct : (rows.map r.keyOf).Nodup) (k : Key) :
    (underKeys r f rows).find? k = (rows.find? fun row => r.keyOf row = k).map f :=
  OrderedMap.find?_ofList_map distinct k

theorem values_underKeys_perm (distinct : (rows.map r.keyOf).Nodup) :
    (underKeys r f rows).values.Perm (rows.map f) := by
  have keys : ((rows.map fun row => (r.keyOf row, f row)).map (·.1)).Nodup := by
    rw [List.map_map]
    exact distinct
  have perm := OrderedMap.values_ofList_perm keys
  rwa [List.map_map] at perm

end UnderKeys

/-- The table that has got rows in turn, all at one instant. -/
def holding (r : Relation) (now : Instant) (rows : List Row) : Table :=
  ⟨r, if r.temporal then .temporal (underKeys r (VersionChain.new · now) rows)
    else .conventional (underKeys r id rows)⟩

/-- **A row is put in just if no row has its key.** -/
theorem insert_holding (fits : r.Admits row) : (holding r now rows).insert row now =
    if r.keyOf row ∈ rows.map r.keyOf then .error (.duplicateKey r.name (r.keyOf row))
    else .ok (holding r now (rows ++ [row])) := by
  have checks : (holding r now rows).checkRow row = .ok () := checkRow_eq_ok_iff.mpr fits
  rw [insert_eq, checks, ok_bind]
  unfold add holding
  cases r.temporal with
  | true =>
      simp only [if_true, underKeys_append_singleton]
      split
      · next c found =>
          -- a chain that was put in has not ended
          obtain ⟨old, hold, same, rfl⟩ := exists_of_find?_underKeys found
          rw [if_pos (List.mem_map.mpr ⟨old, hold, same⟩)]
          exact if_pos rfl
      · next absent => rw [if_neg (find?_underKeys_eq_none_iff.mp absent)]
  | false =>
      simp only [Bool.false_eq_true, if_false, underKeys_append_singleton]
      split
      · next found =>
          obtain ⟨old, hold, same, -⟩ := exists_of_find?_underKeys found
          rw [if_pos (List.mem_map.mpr ⟨old, hold, same⟩)]
      · next absent => rw [if_neg (find?_underKeys_eq_none_iff.mp absent)]; rfl

/-! ## Lines, one after another -/

theorem loadLine_holding_eq_ok_iff : loadLine now (holding r now rows) line = .ok t ↔
    ∃ row, r.Spells line row ∧ r.keyOf row ∉ rows.map r.keyOf ∧
      t = holding r now (rows ++ [row]) := by
  unfold loadLine
  rw [bind_eq_ok_iff]
  refine exists_congr fun row => ?_
  rw [mapError_eq_ok_iff]
  change readRow r line = .ok row ∧ _ ↔ _
  rw [readRow_eq_ok_iff]
  refine and_congr_right fun spelled => ?_
  rw [insert_holding (admits_of_spells spelled)]
  split <;> simp_all [eq_comm]

/-- A line is at fault that is no row, or one with a key that is taken. -/
theorem fault_of_loadLine_holding (h : loadLine now (holding r now rows) line = .error fault) :
    readRow r line = .error fault ∨
      ∃ row, r.Spells line row ∧ fault = .refused (.duplicateKey r.name (r.keyOf row)) := by
  rcases bind_eq_error_iff.mp h with unread | ⟨row, read, refused⟩
  · exact .inl unread
  · have spelled : r.Spells line row := readRow_eq_ok_iff.mp read
    obtain ⟨cause, refused, rfl⟩ := mapError_eq_error_iff.mp refused
    rw [insert_holding (admits_of_spells spelled)] at refused
    split at refused
    · cases refused
      exact .inr ⟨row, spelled, rfl⟩
    · cases refused

theorem loadLines_append (t : Table) (now : Instant) (number : Nat)
    (earlier later : List (List Char)) : t.loadLines now number (earlier ++ later) =
      t.loadLines now number earlier >>= fun t =>
        t.loadLines now (number + earlier.length) later := by
  induction earlier generalizing t number with
  | nil => rfl
  | cons line earlier ih =>
      have shift : number + (line :: earlier).length = number + 1 + earlier.length := by
        rw [List.length_cons]
        omega
      rw [List.cons_append, loadLines, loadLines, shift]
      split
      · exact ih t (number + 1)
      · cases loadLine now t line with
        | error fault => rfl
        | ok t => exact ih t (number + 1)

theorem loadLines_blank (blank : (trim line).isEmpty = true) :
    t.loadLines now number [line] = .ok t := by
  rw [loadLines, if_pos blank, loadLines]

/-- The fault of lines is that of the first line that cannot be loaded, with its number. -/
theorem loadLines_eq_error {n : Nat} (h : t.loadLines now number lines = .error (n, fault)) :
    ∃ earlier line later t', lines = earlier ++ line :: later ∧ n = number + earlier.length ∧
      t.loadLines now number earlier = .ok t' ∧ (trim line).isEmpty = false ∧
      loadLine now t' line = .error fault := by
  -- from the back: the loading stops at the fault, so a line behind it changes nothing
  induction lines using List.reverseRecOn with
  | nil => cases h
  | append_singleton front line ih =>
      rw [loadLines_append] at h
      rcases bind_eq_error_iff.mp h with failed | ⟨t', done, failed⟩
      · obtain ⟨earlier, line', later, t', rfl, found⟩ := ih failed
        exact ⟨earlier, line', later ++ [line], t', List.append_assoc .., found⟩
      · cases filled : (trim line).isEmpty with
        | true =>
            rw [loadLines_blank filled] at failed
            cases failed
        | false =>
            rw [loadLines_cons filled] at failed
            cases last : loadLine now t' line with
            | ok t'' =>
                rw [last] at failed
                cases failed
            | error fault' =>
                rw [last] at failed
                cases failed
                exact ⟨front, line, [], t', rfl, rfl, done, filled, last⟩

/-! ## Lists of rows -/

theorem lists_nil : r.Lists [] rows ↔ rows = [] := by
  constructor
  · rintro ⟨spelled, -⟩
    cases spelled
    rfl
  · rintro rfl
    exact ⟨.nil, List.nodup_nil⟩

theorem lists_append_blank (blank : (trim line).isEmpty = true) :
    r.Lists (lines ++ [line]) rows ↔ r.Lists lines rows := by
  have same : written (lines ++ [line]) = written lines := by
    simp [written, blank]
  constructor
  · rintro ⟨spelled, distinct⟩
    exact ⟨same ▸ spelled, distinct⟩
  · rintro ⟨spelled, distinct⟩
    exact ⟨same ▸ spelled, distinct⟩

theorem lists_append (filled : (trim line).isEmpty = false) :
    r.Lists (lines ++ [line]) rows ↔ ∃ front row, r.Lists lines front ∧ r.Spells line row ∧
      r.keyOf row ∉ front.map r.keyOf ∧ rows = front ++ [row] := by
  have more : written (lines ++ [line]) = written lines ++ [line] := by
    simp [written, filled]
  have distinct (front : List Row) (row : Row) : ((front ++ [row]).map r.keyOf).Nodup ↔
      r.keyOf row ∉ front.map r.keyOf ∧ (front.map r.keyOf).Nodup := by
    rw [List.map_append, List.map_singleton, ← List.concat_eq_append, List.nodup_concat]
  constructor
  · rintro ⟨spelled, nodup⟩
    rw [more] at spelled
    obtain ⟨front, row, earlier, here, rfl⟩ := forall₂_append_singleton_iff.mp spelled
    obtain ⟨fresh, nodup⟩ := (distinct front row).mp nodup
    exact ⟨front, row, ⟨earlier, nodup⟩, here, fresh, rfl⟩
  · rintro ⟨front, row, ⟨earlier, nodup⟩, here, fresh, rfl⟩
    refine ⟨?_, (distinct front row).mpr ⟨fresh, nodup⟩⟩
    rw [more]
    exact forall₂_append_singleton_iff.mpr ⟨front, row, earlier, here, rfl⟩

/-- **The lines of a list of rows give the table that holds them**, and other lines none. -/
theorem loadLines_new_eq_ok_iff : (new r).loadLines now number lines = .ok t ↔
    ∃ rows, r.Lists lines rows ∧ t = holding r now rows := by
  induction lines using List.reverseRecOn generalizing t with
  | nil =>
      simp only [lists_nil, exists_eq_left]
      exact ⟨fun h => (Except.ok.inj h).symm, fun h => h ▸ rfl⟩
  | append_singleton front line ih =>
      rw [loadLines_append, bind_eq_ok_iff]
      simp only [ih]
      cases filled : (trim line).isEmpty with
      | true =>
          simp only [loadLines_blank filled, lists_append_blank filled]
          constructor
          · rintro ⟨_, ⟨rows, lists, rfl⟩, ⟨⟩⟩
            exact ⟨rows, lists, rfl⟩
          · rintro ⟨rows, lists, rfl⟩
            exact ⟨_, ⟨rows, lists, rfl⟩, rfl⟩
      | false =>
          simp only [loadLines_cons filled, lists_append filled]
          constructor
          · rintro ⟨_, ⟨rows, lists, rfl⟩, last⟩
            cases loaded : loadLine now (holding r now rows) line with
            | error fault =>
                rw [loaded] at last
                cases last
            | ok t' =>
                rw [loaded] at last
                cases last
                obtain ⟨row, here, fresh, rfl⟩ := loadLine_holding_eq_ok_iff.mp loaded
                exact ⟨rows ++ [row], ⟨rows, row, lists, here, fresh, rfl⟩, rfl⟩
          · rintro ⟨_, ⟨rows, row, lists, here, fresh, rfl⟩, rfl⟩
            refine ⟨_, ⟨rows, lists, rfl⟩, ?_⟩
            rw [loadLine_holding_eq_ok_iff.mpr ⟨row, here, fresh, rfl⟩]
            rfl

theorem loadable_iff (now : Instant) (number : Nat) :
    r.Loadable lines ↔ ∃ t, (new r).loadLines now number lines = .ok t := by
  simp only [loadLines_new_eq_ok_iff, Relation.Loadable]
  exact ⟨fun ⟨rows, h⟩ => ⟨_, rows, h, rfl⟩, fun ⟨_, rows, h, _⟩ => ⟨rows, h⟩⟩

/-- The first lines of those that can be loaded can be loaded. -/
theorem loadable_of_append (h : r.Loadable (earlier ++ later)) : r.Loadable earlier := by
  obtain ⟨t, h⟩ := (loadable_iff .first 1).mp h
  rw [loadLines_append] at h
  obtain ⟨t', first, -⟩ := bind_eq_ok_iff.mp h
  exact (loadable_iff .first 1).mpr ⟨t', first⟩

/-- **Lines that cannot be loaded fail at the first line with which they cannot.** -/
theorem failsAt_of_loadLines_new
    (h : (new r).loadLines now 1 lines = .error (number, fault)) : r.FailsAt lines number fault := by
  obtain ⟨earlier, line, later, t, rfl, rfl, done, filled, failed⟩ := loadLines_eq_error h
  have upTo : (earlier ++ line :: later).take (1 + earlier.length) = earlier ++ [line] := by
    rw [Nat.add_comm, List.take_length_add_append]
    rfl
  refine ⟨⟨?_, ?_⟩, line, ?_, ?_⟩
  · intro loadable
    rw [upTo] at loadable
    obtain ⟨t', all⟩ := (loadable_iff now 1).mp loadable
    rw [loadLines_append, done, ok_bind, loadLines_cons filled, failed] at all
    cases all
  · intro n unloadable
    by_contra sooner
    refine unloadable ?_
    rw [List.take_append_of_le_length (by omega)]
    have first := (loadable_iff now 1).mpr ⟨t, done⟩
    rw [← List.take_append_drop n earlier] at first
    exact loadable_of_append first
  · rw [upTo, List.getLast?_concat]
    rfl
  · obtain ⟨rows, -, rfl⟩ := loadLines_new_eq_ok_iff.mp done
    exact fault_of_loadLine_holding failed

/-! ## What is held -/

/-- The table holds rows: it shows just these at present, in the order of their keys, and stores
nothing else; a temporal table has one version of each, which began at an instant and is open. -/
structure Holds (r : Relation) (now : Instant) (rows : List Row) (t : Table) : Prop where
  relation : t.relation = r
  kind : t.isTemporal = r.temporal
  shows : (t.scan none).Perm rows
  ascending : ((t.scan none).map r.keyOf).Pairwise fun a b => compare a b = .lt
  stored : t.physicalSize = rows.length
  began : r.temporal = true → ∀ k, t.history? k =
    (rows.find? fun row => r.keyOf row = k).map fun row => [⟨row, ⟨now, none⟩⟩]

theorem present_holding (distinct : (rows.map r.keyOf).Nodup) :
    (holding r now rows).present = underKeys r id rows := by
  apply OrderedMap.ext
  intro k
  unfold holding
  cases r.temporal with
  | true =>
      rw [if_pos rfl, find?_present_temporal, find?_underKeys distinct, find?_underKeys distinct]
      cases rows.find? fun row => r.keyOf row = k <;> rfl
  | false => rfl

/-- **The table that has got rows with different keys holds them.** -/
theorem holds_holding (distinct : (rows.map r.keyOf).Nodup) (fits : ∀ row ∈ rows, r.Admits row) :
    Holds r now rows (holding r now rows) := by
  have scan : (holding r now rows).scan none = (underKeys r id rows).values := by
    rw [scan_eq_values_rowsAt, ← present_holding distinct]
    rfl
  have shows := values_underKeys_perm (f := id) distinct
  rw [List.map_id] at shows
  -- each row stands under its own key
  have owns : r.Owns (underKeys r id rows) := by
    intro k row found
    obtain ⟨row, hrow, keyed, rfl⟩ := exists_of_find?_underKeys found
    exact ⟨fits row hrow, keyed⟩
  refine ⟨rfl, ?_, scan ▸ shows, scan ▸ owns.ascending, ?_, ?_⟩
  · unfold holding isTemporal
    cases r.temporal <;> rfl
  · cases temporal : r.temporal with
    | true =>
        have sizes := ((values_underKeys_perm (f := (VersionChain.new · now)) distinct).map
          VersionChain.size).sum_eq
        rw [List.map_map] at sizes
        rw [holding, temporal, if_pos rfl, physicalSize_temporal, sizes]
        simp [Function.comp_def, VersionChain.size, VersionChain.new]
    | false =>
        have conventional : (holding r now rows).isTemporal = false := by
          rw [holding, temporal]
          rfl
        rw [physicalSize_conventional conventional, ← length_scan, scan, shows.length_eq]
  · intro temporal k
    rw [holding, temporal, if_pos rfl]
    unfold history?
    dsimp only
    rw [find?_underKeys distinct, Option.map_map]
    rfl

/-- **A list of rows is loaded exactly.** -/
theorem holds_of_loadLines (h : (new r).loadLines now number lines = .ok t) :
    ∃ rows, r.Lists lines rows ∧ Holds r now rows t := by
  obtain ⟨rows, lists, rfl⟩ := loadLines_new_eq_ok_iff.mp h
  refine ⟨rows, lists, holds_holding lists.distinct fun row hrow => ?_⟩
  obtain ⟨line, -, spelled⟩ := exists_mem_of_forall₂ lists.spelled row hrow
  exact admits_of_spells spelled

end Table

end TemporalDB
