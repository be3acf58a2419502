import Mathlib.Data.List.Nodup
import TemporalDB.Proofs.Table.Consistency
import TemporalDB.Proofs.Table.Frame

/-!
# Rows and their keys

Every row that a reachable table shows, at present or as of any instant, fits the relation and has
the key that it is shown under. So among the rows that are shown those of one key are the row that a
look-up of the key finds, and the rows lie in the order of their keys.
-/

namespace TemporalDB

/-- The rows fit the relation and have the keys under which they are kept. -/
def Relation.Owns (r : Relation) (rows : OrderedMap Key Row) : Prop :=
  ∀ k row, rows.find? k = some row → r.Admits row ∧ r.keyOf row = k

namespace Relation.Owns

variable {r : Relation} {rows : OrderedMap Key Row} {row : Row} {k : Key}

theorem insert (h : r.Owns rows) (fits : r.Admits row) (keyed : r.keyOf row = k) :
    r.Owns (rows.insert k row) := by
  intro x held hx
  by_cases same : x = k
  · subst same
    rw [OrderedMap.find?_insert_self] at hx
    cases hx
    exact ⟨fits, keyed⟩
  · rw [OrderedMap.find?_insert_of_ne same] at hx
    exact h x held hx

theorem erase (h : r.Owns rows) (k : Key) : r.Owns (rows.erase k) := by
  intro x held hx
  by_cases same : x = k
  · subst same
    rw [OrderedMap.find?_erase_self] at hx
    cases hx
  · rw [OrderedMap.find?_erase_of_ne same] at hx
    exact h x held hx

theorem mem_values_iff (h : r.Owns rows) :
    row ∈ rows.values ↔ rows.find? (r.keyOf row) = some row := by
  unfold OrderedMap.values
  rw [List.mem_map]
  constructor
  · rintro ⟨⟨k, row⟩, hmem, rfl⟩
    have found := OrderedMap.find?_eq_some_iff.mpr hmem
    rwa [(h k row found).2]
  · intro found
    exact ⟨_, OrderedMap.find?_eq_some_iff.mp found, rfl⟩

theorem ascending (h : r.Owns rows) :
    (rows.values.map r.keyOf).Pairwise fun a b => compare a b = .lt := by
  have keys : rows.values.map r.keyOf = rows.entries.map (·.1) := by
    unfold OrderedMap.values
    rw [List.map_map]
    refine List.map_congr_left fun e he => ?_
    exact (h e.1 e.2 (OrderedMap.find?_eq_some_iff.mpr he)).2
  rw [keys, List.pairwise_map]
  exact rows.ascending

theorem filter_values (h : r.Owns rows) (k : Key) :
    rows.values.filter (fun row => r.keyOf row = k) = (rows.find? k).toList := by
  have mem : ∀ row, row ∈ rows.values.filter (fun row => r.keyOf row = k) ↔
      row ∈ (rows.find? k).toList := by
    intro row
    rw [List.mem_filter, h.mem_values_iff, decide_eq_true_eq, Option.mem_toList]
    constructor
    · rintro ⟨found, rfl⟩
      exact found
    · intro found
      obtain rfl := (h k row found).2
      exact ⟨found, rfl⟩
  have distinct : (rows.values.filter fun row => r.keyOf row = k).Nodup :=
    (List.Nodup.of_map r.keyOf (OrderedMap.nodup_of_ascending h.ascending)).filter _
  have single : (rows.find? k).toList.Nodup := by
    cases rows.find? k <;> simp
  have perm := (List.perm_ext_iff_of_nodup distinct single).mpr mem
  cases found : rows.find? k with
  | none =>
      rw [found] at perm
      exact perm.eq_nil
  | some row =>
      rw [found] at perm
      exact List.perm_singleton.mp perm

end Relation.Owns

namespace Table

theorem owns_perform {t : Table} (h : t.relation.Owns t.present) (w : Write) :
    t.relation.Owns (t.perform w).2.present := by
  rcases present_perform t w with same | ⟨fits, after⟩
  · rw [same]
    exact h
  · rw [after]
    cases w with
    | insert row now => exact h.insert fits rfl
    | update k assignments now =>
        cases found : t.present.find? k with
        | none =>
            simp only [Write.key, found]
            exact h.erase k
        | some old =>
            obtain ⟨admits, keyed⟩ := h k old found
            obtain ⟨admits', same⟩ := fits.assign admits
            simp only [Write.key, found]
            exact h.insert admits' (same.trans keyed)
    | delete k now => exact h.erase k

theorem owns_present_run {t : Table} (h : t.relation.Owns t.present) (ws : List Write) :
    t.relation.Owns (t.run ws).present := by
  induction ws generalizing t with
  | nil => exact h
  | cons w rest ih =>
      have same := (changesOnly_perform t w).relation
      have kept := owns_perform h w
      rw [← same] at kept ⊢
      exact ih kept

theorem present_new (r : Relation) : (new r).present = .empty := by
  unfold new
  cases r.temporal <;> rfl

theorem rowsAt_of_conventional {t : Table} (h : t.isTemporal = false) (asOf : Option Instant) :
    t.rowsAt asOf = t.present := by
  obtain ⟨r, chains | rows⟩ := t
  · cases h
  · rfl

theorem mem_descending_of_at? {c : VersionChain} {asOf : Option Instant} {v : RowVersion}
    (h : c.at? asOf = some v) : v ∈ c.descending := by
  cases asOf with
  | none =>
      obtain ⟨-, rfl⟩ := VersionChain.current?_eq_some_iff.mp h
      exact List.mem_cons_self
  | some t =>
      have found : c.descending.find? (fun v => v.valid.contains t) = some v := h
      exact List.mem_of_find?_eq_some found

/-- Whatever a chain of a run holds fits the relation and has the key of the chain: the writes to the
key have put it in. -/
theorem rows_of_run {r : Relation} (temporal : r.temporal = true) (ws : List Write) :
    ∃ chains, (new r).run ws = ⟨r, .temporal chains⟩ ∧ ∀ k c, chains.find? k = some c →
      ∀ v ∈ c.descending, r.Admits v.row ∧ r.keyOf v.row = k := by
  obtain ⟨chains, run, records⟩ := run_records temporal ws
  refine ⟨chains, run, fun k c found => ?_⟩
  rcases records k with ⟨absent, -⟩ | ⟨c', found', recorded⟩
  · rw [absent] at found
    cases found
  · obtain rfl : c' = c := Option.some.inj (found'.symm.trans found)
    exact recorded.rows fun w hw => key_of_mem_log hw

/-- **The rows that a reachable table shows have their keys**, at present and as of every
instant. -/
theorem owns_run (r : Relation) (ws : List Write) (asOf : Option Instant) :
    r.Owns (((new r).run ws).rowsAt asOf) := by
  cases temporal : r.temporal with
  | true =>
      obtain ⟨chains, hrun, rows⟩ := rows_of_run temporal ws
      intro k row found
      rw [hrun] at found
      change (shown chains asOf).find? k = some row at found
      unfold shown at found
      rw [OrderedMap.find?_filterMap, Option.bind_eq_some_iff] at found
      obtain ⟨c, hc, found⟩ := found
      obtain ⟨v, hv, rfl⟩ := Option.map_eq_some_iff.mp found
      exact rows k c hc v (mem_descending_of_at? hv)
  | false =>
      have kind : ((new r).run ws).isTemporal = false := by
        rw [(changesOnly_run (new r) ws).kind, new, temporal]
        rfl
      have start : (new r).relation.Owns (new r).present := by
        rw [present_new]
        intro k row found
        cases found
      rw [rowsAt_of_conventional kind]
      exact owns_present_run start ws

end Table

end TemporalDB
