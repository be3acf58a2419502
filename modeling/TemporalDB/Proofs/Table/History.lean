import Mathlib.Algebra.GroupWithZero.Nat
import Mathlib.Algebra.BigOperators.Group.List.Basic
import TemporalDB.Proofs.Table.Consistency
import TemporalDB.Proofs.Table.Frame

/-!
# Histories only grow

A write changes the history of its own key at most, and that only at the end: the open version may
be closed, not before it began, and one more version may be opened. So a closed version stays for
good. The number of stored versions and that of present rows are those of the writes that took
effect. Main statement: `history_append_only`.
-/

namespace TemporalDB

namespace Write

def isInsert : Write → Bool
  | insert .. => true
  | _ => false

def isDelete : Write → Bool
  | delete .. => true
  | _ => false

end Write

/-- The versions are the same, or the last of them was open and has been closed, at an instant that
is not before its start. -/
inductive Kept : List RowVersion → List RowVersion → Prop
  | same (versions) : Kept versions versions
  | closed (front) {last : RowVersion} {stop : Instant} (opened : last.valid.stop = none)
      (order : last.valid.start ≤ stop) :
      Kept (front ++ [last]) (front ++ [⟨last.row, ⟨last.valid.start, some stop⟩⟩])

/-- The later history is the earlier one, as far as it was kept, and at most one open version after
it. -/
def Grows (before after : List RowVersion) : Prop :=
  ∃ kept opened, Kept before kept ∧ after = kept ++ opened ∧ opened.length ≤ 1 ∧
    ∀ v ∈ opened, v.valid.isOpen = true

namespace Grows

variable {before after : List RowVersion} {v : RowVersion} {i : Nat}

theorem refl (versions : List RowVersion) : Grows versions versions :=
  ⟨versions, [], .same _, (List.append_nil _).symm, Nat.zero_le _, List.forall_mem_nil _⟩

theorem getElem?_of_closed (h : Grows before after) (hv : before[i]? = some v)
    (closed : v.valid.isOpen = false) : after[i]? = some v := by
  obtain ⟨kept, opened, hkept, rfl, -, -⟩ := h
  have stays : kept[i]? = some v := by
    cases hkept with
    | same => exact hv
    | @closed front last stop hopen order =>
        rcases Nat.lt_or_ge i front.length with before | behind
        · rw [List.getElem?_append_left before] at hv ⊢
          exact hv
        · -- only the open version stands behind the others
          rw [List.getElem?_append_right behind] at hv
          obtain rfl := List.mem_singleton.mp (List.mem_of_getElem? hv)
          rw [ValidTime.isOpen, hopen] at closed
          cases closed
  exact List.getElem?_append_left (List.getElem?_eq_some_iff.mp stays).1 ▸ stays

end Grows

/-- What a write makes of the chain of its key, the chain's versions grow into. -/
theorem Follows.grows {before : Option VersionChain} {w : Write} {c : VersionChain}
    (h : Follows before w c) : Grows ((before.map (·.versions)).getD []) c.versions := by
  have newest {c : VersionChain} {row : Row} {now : Instant} :
      (c.reopen row now).versions = c.versions ++ [⟨row, ⟨c.clamp now, none⟩⟩] :=
    List.reverse_cons
  have one {row : Row} {t : Instant} : ∀ v ∈ [(⟨row, ⟨t, none⟩⟩ : RowVersion)],
      v.valid.isOpen = true := List.forall_mem_singleton.mpr rfl
  have ended {c closed : VersionChain} {now : Instant} (done : c.close? now = some closed) :
      Kept c.versions closed.versions := by
    obtain ⟨hopen, rfl⟩ := VersionChain.close?_eq_some_iff.mp done
    -- an open version is closed at its start at the earliest
    have start : c.last.valid.boundary = c.last.valid.start := by
      rw [ValidTime.boundary, hopen, Option.getD_none]
    unfold VersionChain.versions
    rw [List.reverse_cons, List.reverse_cons]
    exact .closed _ hopen (start ▸ VersionChain.boundary_le_clamp)
  cases h with
  | begin row now => exact ⟨[], _, .same _, rfl, Nat.le_refl 1, one⟩
  | reopen row now closed => exact ⟨_, _, .same _, newest, Nat.le_refl 1, one⟩
  | supersede done =>
      obtain ⟨closed, hclose, rfl⟩ := VersionChain.supersede?_eq_some_iff.mp done
      exact ⟨_, _, ended hclose, newest, Nat.le_refl 1, one⟩
  | close done =>
      exact ⟨_, [], ended done, (List.append_nil _).symm, Nat.zero_le _, List.forall_mem_nil _⟩

/-- A write that opens a version makes its chain longer by one, and a deletion leaves the length. -/
theorem Follows.size {before : Option VersionChain} {w : Write} {c : VersionChain}
    (h : Follows before w c) :
    c.size = (before.map (·.size)).getD 0 + if w.opens = true then 1 else 0 := by
  cases h with
  | begin row now => rfl
  | reopen row now closed => rfl
  | supersede done =>
      obtain ⟨closed, hclose, rfl⟩ := VersionChain.supersede?_eq_some_iff.mp done
      obtain ⟨-, rfl⟩ := VersionChain.close?_eq_some_iff.mp hclose
      rfl
  | close done =>
      obtain ⟨-, rfl⟩ := VersionChain.close?_eq_some_iff.mp done
      rfl

namespace Table

variable {t : Table} {chains : OrderedMap Key VersionChain} {k : Key} {i : Nat} {v : RowVersion}

/-- The versions of a key, earliest first; none for a key that was never held. -/
def versionsOf (t : Table) (k : Key) : List RowVersion := (t.history? k).getD []

/-! ## Histories -/

/-- **A write makes the history of its key grow.** -/
theorem grows_perform (t : Table) (w : Write) :
    Grows (t.versionsOf (w.key t.relation)) ((t.perform w).2.versionsOf (w.key t.relation)) := by
  obtain ⟨r, chains | rows⟩ := t
  · rcases step_cases (t := ⟨r, .temporal chains⟩) rfl w with ⟨-, same⟩ | ⟨-, -, c, done, after⟩
    · rw [same]
      exact .refl _
    · have grown : (putChain ⟨r, .temporal chains⟩ chains (w.key r) c).versionsOf (w.key r) =
          c.versions := by
        unfold versionsOf history? putChain
        simp only [OrderedMap.find?_insert_self, Option.map_some, Option.getD_some]
      rw [after, grown]
      exact done.grows
  · obtain ⟨rows', after⟩ := exists_perform_conventional r rows w
    rw [after]
    exact .refl []

/-- A write leaves the closed versions of all keys where they are. -/
theorem closed_perform (w : Write) (hv : (t.versionsOf k)[i]? = some v)
    (closed : v.valid.isOpen = false) : ((t.perform w).2.versionsOf k)[i]? = some v := by
  by_cases own : k = w.key t.relation
  · subst own
    exact (grows_perform t w).getElem?_of_closed hv closed
  · have same := (changesOnly_perform t w).history k (List.mem_singleton.not.mpr own)
    rw [versionsOf, same]
    exact hv

/-- **A closed version stays for good**, whatever is written. -/
theorem closed_run (ws : List Write) (hv : (t.versionsOf k)[i]? = some v)
    (closed : v.valid.isOpen = false) : ((t.run ws).versionsOf k)[i]? = some v := by
  induction ws generalizing t with
  | nil => exact hv
  | cons w rest ih => exact ih (closed_perform w hv closed)

/-! ## Numbers -/

theorem length_scan (t : Table) : (t.scan none).length = t.size := by
  rw [scan_eq_values_rowsAt, size_eq_size_present]
  exact List.length_map _

/-- An insertion that takes effect adds a present row, a deletion takes one away, and an update
leaves their number. -/
theorem size_perform (t : Table) (w : Write) :
    (t.perform w).2.size + (if t.tookEffect w = true ∧ w.isDelete = true then 1 else 0) =
      t.size + if t.tookEffect w = true ∧ w.isInsert = true then 1 else 0 := by
  have length (m : OrderedMap Key Row) : m.size = m.values.length := (List.length_map _).symm
  simp only [size_eq_size_present]
  cases w with
  | insert row now =>
      cases h : t.insert row now with
      | error e => simp [perform, tookEffect, Write.isInsert, Write.isDelete, h]
      | ok t' =>
          obtain ⟨-, absent, after⟩ := present_of_insert h
          have more := (OrderedMap.values_insert_perm (v := row) absent).length_eq
          simp only [perform, tookEffect, h, Write.isInsert, Write.isDelete, after, length, more]
          simp
  | update k assignments now =>
      cases h : t.update k assignments now with
      | error e => simp [perform, tookEffect, Write.isInsert, Write.isDelete, h]
      | ok result =>
          obtain ⟨m, t'⟩ := result
          obtain ⟨-, ⟨-, -, same⟩ | ⟨old, held, -, after⟩⟩ := present_of_update h
          · simp [perform, Write.isInsert, Write.isDelete, h, same]
          · -- the new row takes the place of the old one
            have before := (OrderedMap.values_perm_erase held).length_eq
            have put := (OrderedMap.values_insert_perm_erase (m := t.present) (k := k)
              (v := assign old assignments)).length_eq
            simp only [perform, h, Write.isInsert, Write.isDelete, after, length, put, before]
            simp
  | delete k now =>
      cases h : t.delete k now with
      | mk m t' =>
          rcases present_of_delete h with ⟨-, rfl, same⟩ | ⟨old, held, rfl, after⟩
          · simp [perform, tookEffect, Write.isInsert, h, same]
          · have before := (OrderedMap.values_perm_erase held).length_eq
            simp only [perform, tookEffect, h, Write.isInsert, Write.isDelete, after, length,
              before]
            simp

theorem physicalSize_temporal (r : Relation) (chains : OrderedMap Key VersionChain) :
    physicalSize ⟨r, .temporal chains⟩ = (chains.values.map (·.size)).sum := by
  unfold physicalSize
  rw [List.sum_eq_foldl, List.foldl_map]

/-- A temporal table stores one more version with every insertion and update that takes effect, and
never one less. -/
theorem physicalSize_perform (h : t.isTemporal = true) (w : Write) : (t.perform w).2.physicalSize =
    t.physicalSize + if t.tookEffect w = true ∧ w.opens = true then 1 else 0 := by
  obtain ⟨r, chains | rows⟩ := t
  · rcases step_cases (t := ⟨r, .temporal chains⟩) rfl w with
      ⟨noEffect, same⟩ | ⟨effect, -, c, done, after⟩
    · rw [same, noEffect, if_neg fun h => Bool.false_ne_true h.1, Nat.add_zero]
    · have length := done.size
      rw [after, effect, putChain, physicalSize_temporal, physicalSize_temporal]
      simp only [true_and]
      cases found : chains.find? (w.key r) with
      | none =>
          rw [found] at length
          rw [((OrderedMap.values_insert_perm found).map _).sum_eq, List.map_cons, List.sum_cons,
            length, Option.map_none, Option.getD_none]
          omega
      | some old =>
          -- the chain of the key takes the place of the one that it grew from
          rw [found] at length
          rw [(OrderedMap.values_insert_perm_erase.map _).sum_eq,
            ((OrderedMap.values_perm_erase found).map _).sum_eq, List.map_cons, List.map_cons,
            List.sum_cons, List.sum_cons, length, Option.map_some, Option.getD_some]
          omega
  · cases h

/-- What is counted with every write is counted by its effective writes over a run. -/
theorem countP_effective (t : Table) (w : Write) (rest : List Write) (p : Write → Bool) :
    (t.effective (w :: rest)).countP p =
      ((t.perform w).2.effective rest).countP p +
        if t.tookEffect w = true ∧ p w = true then 1 else 0 := by
  rw [effective]
  split
  · rename_i effect
    rw [List.countP_cons]
    simp only [effect, true_and]
  · rename_i noEffect
    rw [if_neg fun h => noEffect h.1, Nat.add_zero]

theorem size_run (t : Table) (ws : List Write) :
    (t.run ws).size + (t.effective ws).countP (·.isDelete) =
      t.size + (t.effective ws).countP (·.isInsert) := by
  induction ws generalizing t with
  | nil => rfl
  | cons w rest ih =>
      have first := size_perform t w
      have later := ih (t.perform w).2
      change ((t.perform w).2.run rest).size + _ = _
      rw [countP_effective, countP_effective]
      omega

theorem physicalSize_run (h : t.isTemporal = true) (ws : List Write) :
    (t.run ws).physicalSize = t.physicalSize + (t.effective ws).countP (·.opens) := by
  induction ws generalizing t with
  | nil => rfl
  | cons w rest ih =>
      have first := physicalSize_perform h w
      have later := ih ((changesOnly_perform t w).kind.trans h)
      change ((t.perform w).2.run rest).physicalSize = _
      rw [countP_effective]
      omega

theorem physicalSize_conventional (h : t.isTemporal = false) : t.physicalSize = t.size := by
  obtain ⟨r, chains | rows⟩ := t
  · cases h
  · rfl

/-- Insertions and updates are the writes that open versions. -/
theorem countP_opens (ws : List Write) :
    ws.countP (·.opens) = ws.countP (·.isInsert) + ws.countP (·.isUpdate) := by
  induction ws with
  | nil => rfl
  | cons w rest ih =>
      rw [List.countP_cons, List.countP_cons, List.countP_cons, ih]
      cases w <;> simp only [Write.opens, Write.isInsert, Write.isUpdate] <;> simp <;> omega

/-- A key of a temporal table has one version for each of its effective writes that opens one. -/
theorem length_versionsOf_run {r : Relation} (temporal : r.temporal = true) (ws : List Write)
    (k : Key) :
    (((new r).run ws).versionsOf k).length = ((new r).log ws k).countP (·.opens) := by
  obtain ⟨chains, hrun, records⟩ := run_records temporal ws
  unfold versionsOf history?
  rw [hrun]
  rcases records k with ⟨absent, silent⟩ | ⟨c, found, recorded⟩
  · simp only [absent, silent, Option.map_none]
    rfl
  · have length := recorded.traced.length
    rw [List.length_reverse, ← List.countP_eq_length_filter] at length
    simp only [found, Option.map_some, Option.getD_some, length]
    exact List.length_reverse

theorem physicalSize_new (r : Relation) : (new r).physicalSize = 0 := by
  unfold new
  cases r.temporal <;> rfl

theorem size_new (r : Relation) : (new r).size = 0 := by
  unfold new
  cases r.temporal <;> rfl

/-- **Histories only grow, and are counted exactly.** Whatever was written to a table before, a
write leaves the history of every other key alone and makes that of its own key grow; a closed
version stays as it is whatever is written later. A temporal table stores a version for every insertion and
update that took effect, a conventional one a row for every insertion less the deletions; and both
show as many present rows as there were insertions, less the deletions. -/
theorem history_append_only (r : Relation) (ws : List Write) :
    (∀ w, (∀ k, k ≠ w.key r →
        (((new r).run ws).perform w).2.history? k = ((new r).run ws).history? k) ∧
      Grows (((new r).run ws).versionsOf (w.key r))
        ((((new r).run ws).perform w).2.versionsOf (w.key r))) ∧
    (∀ (more : List Write) (k : Key) (i : Nat) (v : RowVersion),
      (((new r).run ws).versionsOf k)[i]? = some v → v.valid.isOpen = false →
        (((new r).run (ws ++ more)).versionsOf k)[i]? = some v) ∧
    (r.temporal = true →
      (∀ k, (((new r).run ws).versionsOf k).length = ((new r).log ws k).countP (·.opens)) ∧
      ((new r).run ws).physicalSize = ((new r).effective ws).countP (·.isInsert) +
        ((new r).effective ws).countP (·.isUpdate)) ∧
    (r.temporal = false → ((new r).run ws).physicalSize +
      ((new r).effective ws).countP (·.isDelete) = ((new r).effective ws).countP (·.isInsert)) ∧
    ((new r).run ws).size + ((new r).effective ws).countP (·.isDelete) =
      ((new r).effective ws).countP (·.isInsert) ∧
    (((new r).run ws).scan none).length = ((new r).run ws).size := by
  have relation : ((new r).run ws).relation = r := (changesOnly_run (new r) ws).relation
  have kind : ((new r).run ws).isTemporal = r.temporal :=
    (changesOnly_run (new r) ws).kind.trans (isTemporal_new r)
  have size := size_run (new r) ws
  rw [size_new, Nat.zero_add] at size
  refine ⟨fun w => ⟨fun k other => ?_, ?_⟩, ?_, fun temporal => ⟨?_, ?_⟩, ?_, size, length_scan _⟩
  · have same := (changesOnly_perform ((new r).run ws) w).history
    rw [relation] at same
    exact same k (List.mem_singleton.not.mpr other)
  · have grown := grows_perform ((new r).run ws) w
    rwa [relation] at grown
  · intro more k i v hv closed
    rw [run_append]
    exact closed_run more hv closed
  · exact length_versionsOf_run temporal ws
  · rw [physicalSize_run ((isTemporal_new r).trans temporal), physicalSize_new, countP_opens,
      Nat.zero_add]
  · intro conventional
    rw [physicalSize_conventional (kind.trans conventional)]
    exact size

/-- A warehouse that was given up stays as it was, whatever becomes of it later. -/
theorem history_append_only_detours :
    ((((new warehouse).run (detours.take 2)).versionsOf [.integer 1])[0]? =
        some ⟨[.integer 1, .text "Paris"], ⟨noon, some .last⟩⟩ ∧
      (((new warehouse).run (detours.take 2 ++ detours.drop 2)).versionsOf [.integer 1])[0]? =
        some ⟨[.integer 1, .text "Paris"], ⟨noon, some .last⟩⟩) ∧
    (warehouse.temporal = true ∧ ((new warehouse).run detours).physicalSize = 2 + 1) ∧
    (warehouse.plain.temporal = false ∧ ((new warehouse.plain).run detours).physicalSize + 1 = 2) :=
  ⟨⟨rfl, (history_append_only warehouse (detours.take 2)).2.1 (detours.drop 2) _ 0 _ rfl rfl⟩,
    ⟨rfl, ((history_append_only warehouse detours).2.2.1 rfl).2⟩,
    ⟨rfl, (history_append_only warehouse.plain detours).2.2.2.1 rfl⟩⟩

end Table

end TemporalDB
