import Mathlib.Data.List.TakeWhile
import Mathlib.Data.Nat.Find
import TemporalDB.Proofs.Table.Write

/-!
# Reads as of an instant replay the log

The log of a key is replayed on a plain row, without versions and instants. A temporal table shows
at present what the whole log leaves, and as of an instant what the longest part of it leaves that
was in force by then. Main statement: `asOf_read_replays`.
-/

namespace TemporalDB

open Table

/-- What a write makes of the row of its key. -/
def Write.replay (row : Option Row) : Write → Option Row
  | insert new _ => some new
  | update _ assignments _ => row.map (assign · assignments)
  | delete .. => none

/-- The row that a log leaves. -/
def held (log : List Write) : Option Row := log.foldl Write.replay none

def latest (log : List Write) : Option Instant := (log.map (·.instant)).max?

/-- The longest part of a log, from its beginning on, whose latest instant is not after `t`. -/
def inForce (log : List Write) (t : Instant) : List Write :=
  log.take (Nat.findGreatest (fun j => (latest (log.take j)).all (· ≤ t) = true) log.length)

theorem held_snoc (log : List Write) (w : Write) : held (log ++ [w]) = w.replay (held log) := by
  unfold held
  rw [List.foldl_append]
  rfl

theorem latest_le_iff {log : List Write} {t : Instant} :
    (latest log).all (· ≤ t) = true ↔ ∀ w ∈ log, w.instant ≤ t := by
  unfold latest
  cases hmax : (log.map (·.instant)).max? with
  | none =>
      obtain rfl := List.map_eq_nil_iff.mp (List.max?_eq_none_iff.mp hmax)
      simp
  | some a =>
      have le : a ≤ t ↔ ∀ b ∈ log.map (·.instant), b ≤ t := List.max?_le_iff hmax
      simpa using le

/-- As the latest instant of a beginning only grows with it, the part in force ends at the first
write whose own instant is after `t`. -/
theorem inForce_eq_takeWhile (log : List Write) (t : Instant) :
    inForce log t = log.takeWhile fun w => w.instant ≤ t := by
  have leading := List.takeWhile_prefix (fun w : Write => decide (w.instant ≤ t)) (l := log)
  have hgreatest : Nat.findGreatest (fun j => (latest (log.take j)).all (· ≤ t) = true)
      log.length = (log.takeWhile fun w => w.instant ≤ t).length := by
    rw [Nat.findGreatest_eq_iff]
    refine ⟨leading.length_le, fun _ => ?_, fun n hlt hle => ?_⟩
    · rw [latest_le_iff, ← List.prefix_iff_eq_take.mp leading]
      intro w hw
      simpa using List.mem_takeWhile_imp hw
    · rw [latest_le_iff]
      intro all
      have longer : (log.takeWhile fun w => w.instant ≤ t) =
          log.take n ++ (log.drop n).takeWhile fun w => w.instant ≤ t := by
        rw [← List.takeWhile_append_of_pos fun w hw => decide_eq_true (all w hw),
          List.take_append_drop]
      rw [longer, List.length_append, List.length_take_of_le hle] at hlt
      omega
  unfold inForce
  rw [hgreatest]
  exact (List.prefix_iff_eq_take.mp leading).symm

theorem takeWhile_snoc {α : Type} (p : α → Bool) (l : List α) (a : α) :
    (l ++ [a]).takeWhile p =
      if (∀ x ∈ l, p x = true) ∧ p a = true then l ++ [a] else l.takeWhile p := by
  by_cases hl : ∀ x ∈ l, p x = true
  · rw [List.takeWhile_append_of_pos hl, List.takeWhile_eq_self_iff.mpr hl]
    cases ha : p a with
    | true => rw [if_pos ⟨hl, rfl⟩, List.takeWhile_cons_of_pos ha, List.takeWhile_nil]
    | false => simp [ha]
  · have short : (l.takeWhile p).length ≠ l.length := fun hlen =>
      hl (List.takeWhile_eq_self_iff.mp ((List.takeWhile_prefix p).eq_of_length hlen))
    rw [List.takeWhile_append, if_neg short, if_neg fun h => hl h.1]

/-- A chain that shows what a log leaves, at present and as of every instant. -/
structure Shows (log : List Write) (c : VersionChain) : Prop where
  orderly : c.Orderly
  current : c.current?.map (·.row) = held log
  boundary : ∀ t, c.last.valid.boundary ≤ t ↔ ∀ w ∈ log, w.instant ≤ t
  asOf : ∀ t, (c.asOf? t).map (·.row) = held (log.takeWhile fun w => w.instant ≤ t)

namespace Shows

variable {log : List Write} {c c' : VersionChain} {w : Write}

/-- The whole longer log is in force from the clamped instant on. -/
theorem clamp_le_iff (h : Shows log c) {t : Instant} : c.clamp w.instant ≤ t ↔
    (∀ x ∈ log, decide (x.instant ≤ t) = true) ∧ decide (w.instant ≤ t) = true := by
  simp only [VersionChain.clamp_le_iff, h.boundary, decide_eq_true_eq]

/-- It is enough to know what the changed chain shows from the clamped instant on. -/
theorem snoc (h : Shows log c) (now : Instant) (made : w.instant = now) (orderly : c'.Orderly)
    (current : c'.current?.map (·.row) = held (log ++ [w]))
    (boundary : c'.last.valid.boundary = c.clamp now)
    (asOf : ∀ t, (c'.asOf? t).map (·.row) =
      if c.clamp now ≤ t then held (log ++ [w]) else (c.asOf? t).map (·.row)) :
    Shows (log ++ [w]) c' where
  orderly := orderly
  current := current
  boundary t := by
    rw [boundary, ← made, h.clamp_le_iff]
    simp [or_imp, forall_and]
  asOf t := by
    rw [asOf, ← made, takeWhile_snoc, h.asOf]
    by_cases hle : c.clamp w.instant ≤ t
    · rw [if_pos hle, if_pos (h.clamp_le_iff.mp hle)]
    · rw [if_neg hle, if_neg fun hall => hle (h.clamp_le_iff.mpr hall)]

theorem first (done : Follows none w c) : Shows [w] c := by
  cases done with
  | begin row now =>
      refine ⟨.new row now, rfl, fun t => ?_, fun t => ?_⟩
      · simp [VersionChain.new, ValidTime.boundary, Write.instant]
      · rw [VersionChain.asOf?_new]
        by_cases h : now ≤ t <;> simp [Write.instant, h, held, Write.replay]

theorem next (h : Shows log c) (done : Follows (some c) w c') : Shows (log ++ [w]) c' := by
  have hheld := held_snoc log w
  cases done with
  | reopen row now closed =>
      have shown : held (log ++ [.insert row now]) = some row := hheld
      refine h.snoc now rfl (h.orderly.reopen closed row now) shown.symm rfl fun t => ?_
      rw [VersionChain.asOf?_reopen, shown]
      by_cases hle : c.clamp now ≤ t
      · rw [if_pos hle, if_pos hle, Option.map_some]
      · rw [if_neg hle, if_neg hle]
  | @supersede _ _ key assignments now done =>
      obtain ⟨closed, hclose, rfl⟩ := VersionChain.supersede?_eq_some_iff.mp done
      obtain ⟨hopen, hclosed⟩ := VersionChain.close?_eq_some_iff.mp hclose
      have before : held log = some c.last.row := by
        rw [← h.current, VersionChain.current?_eq_some_iff.mpr ⟨hopen, rfl⟩, Option.map_some]
      have shown : held (log ++ [.update key assignments now]) =
          some (assign c.last.row assignments) := by
        rw [hheld, before]
        rfl
      have ended : closed.current? = none :=
        VersionChain.current?_eq_none_iff.mpr ⟨_, by rw [hclosed]⟩
      -- an update is a closing and a reopening at one instant, which both clamp in the same way
      refine h.snoc now rfl ((h.orderly.close hclose).reopen ended _ _) shown.symm ?_ fun t => ?_
      · rw [VersionChain.boundary_reopen, VersionChain.clamp_close hclose]
      · rw [VersionChain.asOf?_reopen, VersionChain.clamp_close hclose, shown]
        by_cases hle : c.clamp now ≤ t
        · rw [if_pos hle, if_pos hle, Option.map_some]
        · rw [if_neg hle, if_neg hle, VersionChain.asOf?_close h.orderly hclose, if_neg hle]
  | @close _ _ key now done =>
      have ended : c'.current? = none := by
        obtain ⟨-, rfl⟩ := VersionChain.close?_eq_some_iff.mp done
        rfl
      have shown : held (log ++ [.delete key now]) = none := hheld
      refine h.snoc now rfl (h.orderly.close done) ?_ (VersionChain.boundary_close done) fun t => ?_
      · rw [ended, shown, Option.map_none]
      · rw [VersionChain.asOf?_close h.orderly done, shown]

end Shows

/-- **Recorded chains show their logs.** -/
theorem Recorded.shows {r : Relation} {log : List Write} {c : VersionChain}
    (h : Recorded r log c) : Shows log c := by
  induction h with
  | first _ done => exact .first done
  | next _ _ done ih => exact ih.next done

namespace Table

variable {chains : OrderedMap Key VersionChain} {r : Relation}

/-- The rows that chains show, by their keys. -/
def shown (chains : OrderedMap Key VersionChain) (asOf : Option Instant) : OrderedMap Key Row :=
  chains.filterMap fun c => (c.at? asOf).map (·.row)

theorem get?_eq_find?_shown (k : Key) (asOf : Option Instant) :
    Table.get? ⟨r, .temporal chains⟩ k asOf = (shown chains asOf).find? k := by
  unfold shown
  rw [OrderedMap.find?_filterMap]
  exact Option.map_bind

theorem scan_eq_values_shown (asOf : Option Instant) :
    Table.scan ⟨r, .temporal chains⟩ asOf = (shown chains asOf).values := by
  unfold shown
  rw [OrderedMap.values_filterMap]
  exact List.map_filterMap

theorem find?_shown_present {logOf : Key → List Write} (h : Records r logOf chains) (k : Key) :
    (shown chains none).find? k = held (logOf k) := by
  unfold shown
  rw [OrderedMap.find?_filterMap]
  rcases h k with ⟨hnone, hlog⟩ | ⟨c, hsome, hrec⟩
  · rw [hnone, hlog]
    rfl
  · rw [hsome]
    exact hrec.shows.current

theorem find?_shown_asOf {logOf : Key → List Write} (h : Records r logOf chains) (k : Key)
    (t : Instant) : (shown chains (some t)).find? k = held (inForce (logOf k) t) := by
  unfold shown
  rw [OrderedMap.find?_filterMap, inForce_eq_takeWhile]
  rcases h k with ⟨hnone, hlog⟩ | ⟨c, hsome, hrec⟩
  · rw [hnone, hlog]
    rfl
  · rw [hsome]
    exact hrec.shows.asOf t

theorem effective_sublist (t : Table) (ws : List Write) : (t.effective ws).Sublist ws := by
  induction ws generalizing t with
  | nil => exact .slnil
  | cons w rest ih =>
      unfold effective
      split
      · exact (ih _).cons_cons w
      · exact (ih _).cons w

/-- Writes with instants that never step back fall into those until an instant and those after
it. -/
theorem eq_filter_append {ws : List Write} (steady : ws.Pairwise fun a b => a.instant ≤ b.instant)
    (t : Instant) : ∃ later, ws = (ws.filter fun w => w.instant ≤ t) ++ later ∧
      ∀ w ∈ later, t < w.instant := by
  induction ws with
  | nil => exact ⟨[], rfl, by simp⟩
  | cons a rest ih =>
      obtain ⟨ha, hrest⟩ := List.pairwise_cons.mp steady
      obtain ⟨later, heq, hlater⟩ := ih hrest
      by_cases hle : a.instant ≤ t
      · refine ⟨later, ?_, hlater⟩
        rw [List.filter_cons, if_pos (decide_eq_true hle), List.cons_append, ← heq]
      · have hlt := not_le.mp hle
        -- the instants ascend, so all the writes behind this one are later, too
        have none_left : (rest.filter fun w => w.instant ≤ t) = [] :=
          List.filter_eq_nil_iff.mpr fun w hw hc =>
            absurd (of_decide_eq_true hc) (not_le.mpr (hlt.trans_le (ha w hw)))
        refine ⟨a :: rest, ?_, ?_⟩
        · rw [List.filter_cons, if_neg (by simpa using hlt), none_left, List.nil_append]
        · exact List.forall_mem_cons.mpr ⟨hlt, fun w hw => hlt.trans_le (ha w hw)⟩

/-- Of a steady run just the writes until an instant are in force then. -/
theorem inForce_log_of_steady (t₀ : Table) {ws : List Write}
    (steady : ws.Pairwise fun a b => a.instant ≤ b.instant) (t : Instant) (k : Key) :
    inForce (t₀.log ws k) t = t₀.log (ws.filter fun w => w.instant ≤ t) k := by
  obtain ⟨later, heq, hlater⟩ := eq_filter_append steady t
  have early : ∀ w ∈ t₀.log (ws.filter fun w => w.instant ≤ t) k,
      decide (w.instant ≤ t) = true := fun w hw =>
    (List.mem_filter.mp ((t₀.effective_sublist _).subset (List.mem_filter.mp hw).1)).2
  have late : (((t₀.run (ws.filter fun w => w.instant ≤ t)).effective later).filter
      fun w => w.key t₀.relation = k).takeWhile (fun w => w.instant ≤ t) = [] := by
    rw [List.takeWhile_eq_nil_iff]
    intro hpos hc
    have hmem := (List.mem_filter.mp (List.get_mem _ ⟨0, hpos⟩)).1
    exact absurd (of_decide_eq_true hc)
      (not_le.mpr (hlater _ ((effective_sublist _ later).subset hmem)))
  rw [inForce_eq_takeWhile]
  conv_lhs => rw [heq]
  rw [log_append, List.takeWhile_append_of_pos early, late, List.append_nil]

/-- **As-of reads replay history.** After any run of writes, with whatever instants, a temporal
table shows for every key at present what the key's log leaves, and as of an instant what the
longest beginning of the log leaves whose latest instant is not after it; a scan gives just those
rows in the order of their keys. If the instants never step back, that is what is shown at present
after the writes until that instant alone. -/
theorem asOf_read_replays (temporal : r.temporal = true) (ws : List Write) (t : Instant) :
    (∀ k, ((new r).run ws).get? k none = held ((new r).log ws k)) ∧
    (∀ k, ((new r).run ws).get? k (some t) = held (inForce ((new r).log ws k) t)) ∧
    (∃ rows : OrderedMap Key Row,
      (∀ k, rows.find? k = held (inForce ((new r).log ws k) t)) ∧
        ((new r).run ws).scan (some t) = rows.values) ∧
    (ws.Pairwise (fun a b => a.instant ≤ b.instant) →
      (∀ k, ((new r).run ws).get? k (some t) =
        ((new r).run (ws.filter fun w => w.instant ≤ t)).get? k none) ∧
      ((new r).run ws).scan (some t) =
        ((new r).run (ws.filter fun w => w.instant ≤ t)).scan none) := by
  obtain ⟨chains, hrun, hrec⟩ := run_records temporal ws
  obtain ⟨past, hpast, hpastrec⟩ :=
    run_records temporal (ws.filter fun w => w.instant ≤ t)
  rw [hrun, hpast]
  simp only [get?_eq_find?_shown, scan_eq_values_shown]
  refine ⟨find?_shown_present hrec, fun k => find?_shown_asOf hrec k t,
    ⟨shown chains (some t), fun k => find?_shown_asOf hrec k t, rfl⟩, fun steady => ?_⟩
  have same : ∀ k, (shown chains (some t)).find? k = (shown past none).find? k := by
    intro k
    rw [find?_shown_asOf hrec, find?_shown_present hpastrec]
    exact congrArg held ((new r).inForce_log_of_steady steady t k)
  exact ⟨same, congrArg OrderedMap.values (OrderedMap.ext same)⟩

def warehouse : Relation :=
  ⟨"warehouse", [⟨"w_id", .integer, true⟩, ⟨"w_city", .varchar 20, false⟩], [0], true⟩

def noon : Instant := ⟨43200, 0, by decide, by decide, Instant.first.nanos_lt, by decide⟩

/-- A warehouse that moves twice at one instant before it is given up. -/
def moves : List Write :=
  [.insert [.integer 1, .text "Paris"] .first, .update [.integer 1] [(1, .text "Lyon")] noon,
    .update [.integer 1] [(1, .text "Nice")] noon, .delete [.integer 1] .last]

theorem asOf_read_replays_moves :
    warehouse.temporal = true ∧ moves.Pairwise (fun a b => a.instant ≤ b.instant) ∧
    ((new warehouse).run moves).get? [.integer 1] (some noon) =
      ((new warehouse).run (moves.filter fun w => w.instant ≤ noon)).get? [.integer 1] none ∧
    ((new warehouse).run moves).get? [.integer 1] (some noon) =
      some [.integer 1, .text "Nice"] :=
  ⟨rfl, by decide, ((asOf_read_replays rfl moves noon).2.2.2 (by decide)).1 _, rfl⟩

end Table

end TemporalDB
