import Mathlib.Data.List.Chain
import TemporalDB.Proofs.Table.AsOf

/-!
# What every reachable temporal table keeps

The chains of a temporal table are never empty, only their last version may be open, no version
begins before the one in front of it ends, and an update opens its version just where it closes the
old one. Every row that was ever stored fits the relation and has the key that it is stored under.
Main statement: `chains_consistent`.
-/

namespace TemporalDB

open Table

/-- What the write that opened a version tells of it and of the version in front of it. -/
def OpenedBy (before after : RowVersion) : Write → Prop
  | .insert row _ => after.row = row
  | .update _ assignments _ =>
    after.row = assign before.row assignments ∧ before.valid.stop = some after.valid.start
  | .delete .. => False

/-- The versions of a key, earliest first, and the writes that opened them. -/
structure Consistent (r : Relation) (k : Key) (origins : List Write)
    (versions : List RowVersion) : Prop where
  nonempty : versions ≠ []
  origins_length : origins.length = versions.length
  closed : ∀ v ∈ versions.dropLast, v.valid.isOpen = false
  start_le_stop : ∀ v ∈ versions, ∀ stop, v.valid.stop = some stop → v.valid.start ≤ stop
  follows : (versions.zip origins).IsChain fun a b =>
    (∃ stop, a.1.valid.stop = some stop ∧ stop ≤ b.1.valid.start) ∧ OpenedBy a.1 b.1 b.2
  admitted : ∀ v ∈ versions, r.Admits v.row
  keyed : ∀ v ∈ versions, r.keyOf v.row = k

/-! ## Rows -/

theorem Relation.Admits.set {r : Relation} {row : Row} (h : r.Admits row) {i : Nat} {c : Column}
    {v : Value} (hc : r.columns[i]? = some c) (hv : c.Admits v) : r.Admits (row.set i v) := by
  refine ⟨by rw [List.length_set, h.1], fun j c' v' hc' hv' => ?_⟩
  by_cases hij : i = j
  · subst hij
    obtain rfl : c = c' := Option.some.inj (hc.symm.trans hc')
    obtain rfl : v' = v := by
      rw [List.getElem?_set_self'] at hv'
      obtain ⟨_, _, rfl⟩ := Option.map_eq_some_iff.mp hv'
      rfl
    exact hv
  · rw [List.getElem?_set_ne hij] at hv'
    exact h.2 j c' v' hc' hv'

theorem Relation.keyOf_set {r : Relation} {i : Nat} (hi : r.isKeyColumn i = false) (row : Row)
    (v : Value) : r.keyOf (row.set i v) = r.keyOf row := by
  unfold keyOf
  refine List.map_congr_left fun p hp => ?_
  have hne : i ≠ p := fun h => by
    subst h
    rw [isKeyColumn, List.contains_iff_mem.mpr hp] at hi
    cases hi
  rw [List.getElem?_set_ne hne]

/-- Assignments that the relation lets pass give a row of the relation with the same key. -/
theorem Relation.AdmitsAll.assign {r : Relation} {assignments : List (Nat × Value)}
    (h : r.AdmitsAll assignments) {row : Row} (hrow : r.Admits row) :
    r.Admits (Table.assign row assignments) ∧
      r.keyOf (Table.assign row assignments) = r.keyOf row := by
  induction assignments generalizing row with
  | nil => exact ⟨hrow, rfl⟩
  | cons a rest ih =>
      obtain ⟨⟨hkey, c, hc, hv⟩, hrest⟩ := List.forall_mem_cons.mp h
      obtain ⟨admits, same⟩ := ih hrest (hrow.set hc hv)
      rw [Table.assign_cons]
      exact ⟨admits, same.trans (r.keyOf_set hkey row a.2)⟩

/-- The rows of a recorded chain fit the relation and have the key of the log. -/
theorem Recorded.rows {r : Relation} {log : List Write} {c : VersionChain} (h : Recorded r log c)
    {k : Key} (keyed : ∀ w ∈ log, w.key r = k) :
    ∀ v ∈ c.descending, r.Admits v.row ∧ r.keyOf v.row = k := by
  induction h with
  | first fits done =>
      cases done with
      | begin row now =>
          intro v hv
          obtain rfl := List.mem_singleton.mp hv
          exact ⟨fits, keyed _ List.mem_cons_self⟩
  | @next log w c c' before fits done ih =>
      have ih := ih fun x hx => keyed x (List.mem_append_left _ hx)
      have hw := keyed w (List.mem_append_right _ List.mem_cons_self)
      have last := ih c.last List.mem_cons_self
      cases done with
      | reopen row now closed => exact List.forall_mem_cons.mpr ⟨⟨fits, hw⟩, ih⟩
      | @supersede _ _ key assignments now done =>
          obtain ⟨closed, hclose, rfl⟩ := VersionChain.supersede?_eq_some_iff.mp done
          obtain ⟨-, rfl⟩ := VersionChain.close?_eq_some_iff.mp hclose
          -- no assignment changes a key column, so the new row has the key of the last one
          obtain ⟨admits, same⟩ := fits.assign last.1
          refine List.forall_mem_cons.mpr ⟨⟨admits, same.trans last.2⟩, ?_⟩
          exact List.forall_mem_cons.mpr ⟨last, fun v hv => ih v (List.mem_cons_of_mem _ hv)⟩
      | close done =>
          obtain ⟨-, rfl⟩ := VersionChain.close?_eq_some_iff.mp done
          exact List.forall_mem_cons.mpr ⟨last, fun v hv => ih v (List.mem_cons_of_mem _ hv)⟩

/-! ## Versions and the writes that opened them -/

/-- A chain, latest version first, with the writes that opened its versions. -/
structure Traced (origins : List Write) (c : VersionChain) : Prop where
  length : origins.length = c.descending.length
  opened : (c.descending.zip origins).IsChain fun b a => OpenedBy a.1 b.1 b.2

namespace Traced

variable {origins : List Write} {c closed : VersionChain} {w : Write} {row : Row} {now : Instant}

theorem head_zip {α β : Type} {a : α} {l : List α} {os : List β} {y : α × β}
    (h : y ∈ ((a :: l).zip os).head?) : y.1 = a := by
  cases os with
  | nil => cases h
  | cons o os =>
      obtain rfl : (a, o) = y := Option.some.inj h
      rfl

theorem reopen (h : Traced origins c) (hopened : OpenedBy c.last ⟨row, ⟨c.clamp now, none⟩⟩ w) :
    Traced (w :: origins) (c.reopen row now) where
  length := congrArg Nat.succ h.length
  opened := by
    refine List.isChain_cons.mpr ⟨fun y hy => ?_, h.opened⟩
    rw [head_zip hy]
    exact hopened

/-- Closing changes of the last version only where it ends, which the write that opened it does not
tell. -/
theorem close (h : Traced origins c) (done : c.close? now = some closed) :
    Traced origins closed := by
  obtain ⟨-, rfl⟩ := VersionChain.close?_eq_some_iff.mp done
  refine ⟨h.length, ?_⟩
  have opened := h.opened
  cases origins with
  | nil => exact .nil
  | cons o os =>
      obtain ⟨head, rest⟩ := List.isChain_cons.mp opened
      refine List.isChain_cons.mpr ⟨fun y hy => ?_, rest⟩
      have here := head y hy
      cases o <;> exact here

end Traced

/-- A recorded chain has one version for every write of its log that opens one. -/
theorem Recorded.traced {r : Relation} {log : List Write} {c : VersionChain}
    (h : Recorded r log c) : Traced (log.filter (·.opens)).reverse c := by
  induction h with
  | first fits done =>
      cases done with
      | begin row now => exact ⟨rfl, .singleton _⟩
  | @next log w c c' before fits done ih =>
      rw [List.filter_append, List.reverse_append]
      cases done with
      | reopen row now closed => exact ih.reopen rfl
      | @supersede _ _ key assignments now done =>
          obtain ⟨closed, hclose, rfl⟩ := VersionChain.supersede?_eq_some_iff.mp done
          have moved := VersionChain.clamp_close hclose
          refine (ih.close hclose).reopen ?_
          obtain ⟨-, rfl⟩ := VersionChain.close?_eq_some_iff.mp hclose
          exact ⟨rfl, congrArg some moved.symm⟩
      | close done => exact ih.close done

/-- Two versions that follow each other are in order, and the later one tells of the write that
opened it. -/
theorem Traced.follows {origins : List Write} {c : VersionChain} (h : Traced origins c)
    (orderly : c.Orderly) : (c.descending.zip origins).IsChain fun b a =>
      (∃ stop, a.1.valid.stop = some stop ∧ stop ≤ b.1.valid.start) ∧ OpenedBy a.1 b.1 b.2 := by
  refine List.isChain_iff_getElem.mpr fun i hi => ⟨?_, List.isChain_iff_getElem.mp h.opened i hi⟩
  rw [List.getElem_zip, List.getElem_zip]
  exact List.pairwise_iff_getElem.mp orderly.pairwise i (i + 1) _ _ (Nat.lt_succ_self i)

/-- Recorded chains are consistent with the writes of their logs. -/
theorem Recorded.consistent {r : Relation} {log : List Write} {c : VersionChain}
    (h : Recorded r log c) {k : Key} (keyed : ∀ w ∈ log, w.key r = k) :
    Consistent r k (log.filter (·.opens)) c.versions := by
  have orderly := h.shows.orderly
  have traced := h.traced
  have rows := h.rows keyed
  have mem {v : RowVersion} (hv : v ∈ c.versions) : v ∈ c.descending := List.mem_reverse.mp hv
  refine ⟨?_, ?_, ?_, fun v hv => orderly.start_le_stop v (mem hv), ?_,
    fun v hv => (rows v (mem hv)).1, fun v hv => (rows v (mem hv)).2⟩
  · exact List.reverse_ne_nil_iff.mpr (List.cons_ne_nil _ _)
  · have hlen := traced.length
    rw [List.length_reverse] at hlen
    rw [hlen]
    exact List.length_reverse.symm
  · intro v hv
    rw [VersionChain.versions, List.reverse_cons, List.dropLast_concat, List.mem_reverse] at hv
    obtain ⟨stop, hstop, -⟩ := (List.pairwise_cons.mp orderly.pairwise).1 v hv
    rw [ValidTime.isOpen, hstop, Option.isNone_some]
  · have hzip : (c.descending.zip (log.filter (·.opens)).reverse).reverse =
        c.versions.zip (log.filter (·.opens)) := by
      unfold List.zip
      rw [List.reverse_zipWith traced.length.symm, List.reverse_reverse]
      rfl
    rw [← hzip, List.isChain_reverse]
    exact traced.follows orderly

namespace Table

theorem key_of_mem_log {t : Table} {ws : List Write} {k : Key} {w : Write} (h : w ∈ t.log ws k) :
    w.key t.relation = k :=
  of_decide_eq_true (List.mem_filter.mp h).2

/-- **Temporal tables are consistent.** Whatever is written to a temporal table and at whatever
instants, accepted or refused, the versions of every key that it stores are consistent with the
writes to the key that took effect. -/
theorem chains_consistent {r : Relation} (temporal : r.temporal = true) (ws : List Write) :
    ∃ chains, ((new r).run ws).rows = .temporal chains ∧
      ∀ k c, (k, c) ∈ chains.entries →
        Consistent r k (((new r).log ws k).filter (·.opens)) c.versions := by
  obtain ⟨chains, hrun, hrec⟩ := run_records temporal ws
  refine ⟨chains, by rw [hrun], fun k c hmem => ?_⟩
  have hfind := OrderedMap.find?_eq_some_iff.mpr hmem
  rcases hrec k with ⟨hnone, -⟩ | ⟨c', hsome, recorded⟩
  · rw [hnone] at hfind
    cases hfind
  · obtain rfl : c' = c := Option.some.inj (hsome.symm.trans hfind)
    exact recorded.consistent fun w hw => key_of_mem_log hw

/-- A warehouse that is given up and comes back before it was given up, by its clock. -/
def detours : List Write :=
  [.insert [.integer 1, .text "Paris"] noon, .delete [.integer 1] .last,
    .insert [.integer 1, .text "Lille"] .first, .update [.integer 1] [(1, .text "Lyon")] noon]

theorem chains_consistent_detours :
    warehouse.temporal = true ∧ ((new warehouse).run detours).physicalSize = 3 ∧
    ∃ chains, ((new warehouse).run detours).rows = .temporal chains ∧
      ∀ k c, (k, c) ∈ chains.entries →
        Consistent warehouse k (((new warehouse).log detours k).filter (·.opens)) c.versions :=
  ⟨rfl, rfl, chains_consistent rfl detours⟩

end Table

end TemporalDB
