import Mathlib.Order.MinMax
import TemporalDB.Proofs.Instant.Order
import TemporalDB.VersionChain

/-!
# Version chains in order

A chain is orderly if every closed version ends no earlier than it begins, all versions but the
last are closed, and none begins before an earlier one ends. What is done to a chain keeps it
orderly, and an as-of read of the changed chain is the read of the old one until the change, and
the change from then on.
-/

namespace TemporalDB

namespace ValidTime

theorem contains_iff {v : ValidTime} {t : Instant} :
    v.contains t = true ↔ v.start ≤ t ∧ ∀ stop, v.stop = some stop → t < stop := by
  cases hs : v.stop <;> simp [contains, hs]

end ValidTime

namespace VersionChain

variable {c closed : VersionChain} {row : Row} {now t : Instant}

def descending (c : VersionChain) : List RowVersion := c.last :: c.earlier

/-- The order that a chain keeps: no version ends before it begins, and of two versions the one in
front is closed when the other begins. -/
structure Orderly (c : VersionChain) : Prop where
  start_le_stop : ∀ v ∈ c.descending, ∀ stop, v.valid.stop = some stop → v.valid.start ≤ stop
  pairwise : c.descending.Pairwise fun later earlier =>
    ∃ stop, earlier.valid.stop = some stop ∧ stop ≤ later.valid.start

/-- A closed chain is the chain with its open version ended at the clamped instant. -/
theorem close?_eq_some_iff : c.close? now = some closed ↔
    c.last.valid.stop = none ∧
      closed = ⟨⟨c.last.row, ⟨c.last.valid.start, some (c.clamp now)⟩⟩, c.earlier⟩ := by
  unfold close? ValidTime.isOpen
  cases c.last.valid.stop <;> simp [eq_comm]

theorem current?_eq_some_iff {v : RowVersion} :
    c.current? = some v ↔ c.last.valid.stop = none ∧ c.last = v := by
  unfold current? ValidTime.isOpen
  cases c.last.valid.stop <;> simp

theorem current?_eq_none_iff : c.current? = none ↔ ∃ stop, c.last.valid.stop = some stop := by
  unfold current? ValidTime.isOpen
  cases c.last.valid.stop <;> simp

/-- There is a version to close just if there is a present one. -/
theorem close?_eq_none_iff : c.close? now = none ↔ c.current? = none := by
  unfold close? current?
  cases c.last.valid.isOpen <;> simp

theorem current?_of_close (h : c.close? now = some closed) :
    c.current? = some c.last ∧ closed.current? = none := by
  obtain ⟨hopen, rfl⟩ := close?_eq_some_iff.mp h
  exact ⟨current?_eq_some_iff.mpr ⟨hopen, rfl⟩, rfl⟩

/-- A superseded chain is the closed chain, reopened where it was closed. -/
theorem supersede?_eq_some_iff {c' : VersionChain} : c.supersede? row now = some c' ↔
    ∃ closed, c.close? now = some closed ∧ c' = closed.reopen row (c.clamp now) := by
  unfold supersede?
  rw [Option.map_eq_some_iff]
  simp only [eq_comm]

theorem supersede?_eq_none_iff : c.supersede? row now = none ↔ c.current? = none := by
  unfold supersede?
  rw [Option.map_eq_none_iff, close?_eq_none_iff]

/-! ## The last boundary -/

theorem boundary_reopen : (c.reopen row now).last.valid.boundary = c.clamp now := rfl

theorem boundary_close (h : c.close? now = some closed) :
    closed.last.valid.boundary = c.clamp now := by
  obtain ⟨-, rfl⟩ := close?_eq_some_iff.mp h
  rfl

theorem clamp_le_iff : c.clamp now ≤ t ↔ c.last.valid.boundary ≤ t ∧ now ≤ t := by
  unfold clamp
  rw [max_le_iff, and_comm]

theorem boundary_le_clamp : c.last.valid.boundary ≤ c.clamp now := (clamp_le_iff.mp le_rfl).1

theorem clamp_close (h : c.close? now = some closed) :
    closed.clamp (c.clamp now) = c.clamp now := by
  unfold clamp
  rw [boundary_close h]
  exact max_self _

namespace Orderly

theorem start_le_boundary (h : c.Orderly) : c.last.valid.start ≤ c.last.valid.boundary := by
  unfold ValidTime.boundary
  cases hs : c.last.valid.stop with
  | none => exact le_rfl
  | some stop => exact h.start_le_stop c.last List.mem_cons_self stop hs

/-- From the last boundary on, only the last version can be valid. -/
theorem not_contains (h : c.Orderly) {v : RowVersion} (hv : v ∈ c.earlier)
    (ht : c.last.valid.boundary ≤ t) : v.valid.contains t = false := by
  obtain ⟨stop, hstop, hle⟩ := (List.pairwise_cons.mp h.pairwise).1 v hv
  apply Bool.eq_false_iff.mpr
  intro hc
  have lt := (ValidTime.contains_iff.mp hc).2 stop hstop
  exact absurd lt (not_lt.mpr (hle.trans (h.start_le_boundary.trans ht)))

theorem new (row : Row) (now : Instant) : (VersionChain.new row now).Orderly where
  start_le_stop := by
    intro v hv stop hs
    obtain rfl := List.mem_singleton.mp hv
    cases hs
  pairwise := List.pairwise_singleton _ _

theorem close (h : c.Orderly) (hc : c.close? now = some closed) : closed.Orderly := by
  obtain ⟨-, rfl⟩ := close?_eq_some_iff.mp hc
  obtain ⟨before, rest⟩ := List.pairwise_cons.mp h.pairwise
  refine ⟨?_, List.pairwise_cons.mpr ⟨before, rest⟩⟩
  intro v hv stop hs
  rcases List.mem_cons.mp hv with rfl | hv
  · cases hs
    exact h.start_le_boundary.trans boundary_le_clamp
  · exact h.start_le_stop v (List.mem_cons_of_mem _ hv) stop hs

theorem reopen (h : c.Orderly) (hc : c.current? = none) (row : Row) (now : Instant) :
    (c.reopen row now).Orderly := by
  obtain ⟨stop, hstop⟩ := current?_eq_none_iff.mp hc
  have hb : c.last.valid.boundary = stop := by simp [ValidTime.boundary, hstop]
  refine ⟨?_, List.pairwise_cons.mpr ⟨?_, h.pairwise⟩⟩
  · intro v hv stop hs
    rcases List.mem_cons.mp hv with rfl | hv
    · cases hs
    · exact h.start_le_stop v hv stop hs
  · intro v hv
    rcases List.mem_cons.mp hv with rfl | hv
    · exact ⟨stop, hstop, hb ▸ boundary_le_clamp⟩
    · obtain ⟨s, hs, hle⟩ := (List.pairwise_cons.mp h.pairwise).1 v hv
      exact ⟨s, hs, hle.trans (h.start_le_boundary.trans boundary_le_clamp)⟩

end Orderly

/-! ## Reads as of an instant -/

theorem asOf?_new : (new row now).asOf? t =
    if now ≤ t then some ⟨row, ⟨now, none⟩⟩ else none := by
  by_cases h : now ≤ t <;> simp [asOf?, new, ValidTime.contains, h]

theorem asOf?_reopen : (c.reopen row now).asOf? t =
    if c.clamp now ≤ t then some ⟨row, ⟨c.clamp now, none⟩⟩ else c.asOf? t := by
  by_cases h : c.clamp now ≤ t <;> simp [asOf?, reopen, ValidTime.contains, h]

/-- Before the instant of closing the open version is read as before, from then on there is
none. -/
theorem asOf?_close (h : c.Orderly) (hc : c.close? now = some closed) :
    (closed.asOf? t).map (·.row) =
      if c.clamp now ≤ t then none else (c.asOf? t).map (·.row) := by
  obtain ⟨hopen, rfl⟩ := close?_eq_some_iff.mp hc
  unfold asOf?
  rw [List.find?_cons, List.find?_cons]
  by_cases hle : c.clamp now ≤ t
  · have past : (ValidTime.mk c.last.valid.start (some (c.clamp now))).contains t = false := by
      simp [ValidTime.contains, hle]
    have none_earlier : c.earlier.find? (fun v => v.valid.contains t) = none :=
      List.find?_eq_none.mpr fun v hv => by
        rw [h.not_contains hv (boundary_le_clamp.trans hle)]
        exact Bool.false_ne_true
    rw [if_pos hle]
    simp only [past, none_earlier, Option.map_none]
  · have same : (ValidTime.mk c.last.valid.start (some (c.clamp now))).contains t =
        c.last.valid.contains t := by
      simp [ValidTime.contains, hopen, not_le.mp hle]
    rw [if_neg hle]
    simp only [same]
    cases c.last.valid.contains t <;> rfl

end VersionChain

end TemporalDB
