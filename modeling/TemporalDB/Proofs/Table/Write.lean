import Mathlib.Data.List.Induction
import TemporalDB.Proofs.OrderedMap
import TemporalDB.Proofs.Outcome
import TemporalDB.Proofs.VersionChain
import TemporalDB.Table

/-!
# Runs of writes

A write is a call that inserts, updates or deletes, with its instant. A run performs writes one
after another, whatever they answer, and its log keeps those that took effect. `step_cases` says
all that a write can do to a temporal table, and `find?_run` that a run keeps, for every key, a
chain that records the key's log.
-/

namespace TemporalDB

/-- A call that writes to a table, and the instant at which it is made. -/
inductive Write where
  | insert (row : Row) (now : Instant)
  | update (key : Key) (assignments : List (Nat × Value)) (now : Instant)
  | delete (key : Key) (now : Instant)
deriving DecidableEq

namespace Write

def instant : Write → Instant
  | insert _ now => now
  | update _ _ now => now
  | delete _ now => now

def key (r : Relation) : Write → Key
  | insert row _ => r.keyOf row
  | update key _ _ => key
  | delete key _ => key

def isUpdate : Write → Bool
  | update .. => true
  | _ => false

/-- Whether a write opens a version when it takes effect. -/
def opens : Write → Bool
  | delete .. => false
  | _ => true

end Write

/-- A column may hold the values of its type, and null unless it is not to be null. -/
def Column.Admits (c : Column) (v : Value) : Prop :=
  v.conforms c.type = true ∧ (c.notNull = true → v ≠ .null)

/-- A relation may hold the rows with one value for every column, which the column may hold. -/
def Relation.Admits (r : Relation) (row : Row) : Prop :=
  row.length = r.arity ∧
    ∀ (i : Nat) (c : Column) (v : Value), r.columns[i]? = some c → row[i]? = some v → c.Admits v

/-- A relation may take assignments of values that columns outside the key may hold. -/
def Relation.AdmitsAll (r : Relation) (assignments : List (Nat × Value)) : Prop :=
  ∀ a ∈ assignments, r.isKeyColumn a.1 = false ∧
    ∃ c : Column, r.columns[a.1]? = some c ∧ c.Admits a.2

/-- What a relation lets pass of a write. -/
def Relation.AdmitsWrite (r : Relation) : Write → Prop
  | .insert row _ => r.Admits row
  | .update _ assignments _ => r.AdmitsAll assignments
  | .delete .. => True

/-- What a write makes of the chain of its key, if it takes effect. -/
inductive Follows : Option VersionChain → Write → VersionChain → Prop
  | begin (row now) : Follows none (.insert row now) (.new row now)
  | reopen {c : VersionChain} (row now) (closed : c.current? = none) :
      Follows (some c) (.insert row now) (c.reopen row now)
  | supersede {c c' : VersionChain} {key assignments now}
      (done : c.supersede? (Table.assign c.last.row assignments) now = some c') :
      Follows (some c) (.update key assignments now) c'
  | close {c c' : VersionChain} {key now} (done : c.close? now = some c') :
      Follows (some c) (.delete key now) c'

/-- The chains that effective writes to one key leave, from the first write on. -/
inductive Recorded (r : Relation) : List Write → VersionChain → Prop
  | first {w : Write} {c : VersionChain} (fits : r.AdmitsWrite w) (done : Follows none w c) :
      Recorded r [w] c
  | next {log : List Write} {w : Write} {c c' : VersionChain} (before : Recorded r log c)
      (fits : r.AdmitsWrite w) (done : Follows (some c) w c') : Recorded r (log ++ [w]) c'

namespace Table

/-- The answer of a write, and the table after it. -/
def perform (t : Table) : Write → Except TableError Mutation × Table
  | .insert row now =>
    match t.insert row now with
    | .ok t' => (.ok .applied, t')
    | .error e => (.error e, t)
  | .update key assignments now =>
    match t.update key assignments now with
    | .ok (m, t') => (.ok m, t')
    | .error e => (.error e, t)
  | .delete key now => (.ok (t.delete key now).1, (t.delete key now).2)

/-- Whether a write takes effect: an insertion that is not refused, or an update or a deletion that
finds its row. -/
def tookEffect (t : Table) (w : Write) : Bool := (t.perform w).1 matches .ok .applied

def run (t : Table) (ws : List Write) : Table := ws.foldl (fun t w => (t.perform w).2) t

/-- The writes of a run that take effect. -/
def effective (t : Table) : List Write → List Write
  | [] => []
  | w :: rest =>
    if t.tookEffect w then w :: (t.perform w).2.effective rest else (t.perform w).2.effective rest

/-- The writes of a run that take effect on a key. -/
def log (t : Table) (ws : List Write) (k : Key) : List Write :=
  (t.effective ws).filter fun w => w.key t.relation = k

theorem run_snoc (t : Table) (ws : List Write) (w : Write) :
    t.run (ws ++ [w]) = ((t.run ws).perform w).2 := by
  unfold run
  rw [List.foldl_append]
  rfl

theorem effective_append (t : Table) (ws more : List Write) :
    t.effective (ws ++ more) = t.effective ws ++ (t.run ws).effective more := by
  induction ws generalizing t with
  | nil => rfl
  | cons w rest ih =>
      simp only [List.cons_append, effective, ih]
      cases t.tookEffect w <;> rfl

theorem log_append (t : Table) (ws more : List Write) (k : Key) :
    t.log (ws ++ more) k =
      t.log ws k ++ ((t.run ws).effective more).filter fun w => w.key t.relation = k := by
  unfold log
  rw [effective_append, List.filter_append]

/-! ## What the checks let pass -/

theorem checkValue_eq_ok_iff {table : String} {c : Column} {v : Value} :
    checkValue table c v = .ok () ↔ c.Admits v := by
  unfold checkValue Column.Admits
  by_cases hnull : v = .null
  · subst hnull
    cases c.notNull <;> simp [Value.conforms]
  · cases v.conforms c.type <;> simp [hnull]

theorem outcome_checkValueAt {t : Table} {i : Nat} {c : Column} {v : Value}
    (there : t.relation.columns[i]? = some c) :
    Bounded.outcome (Bounded.checkValueAt t i v) = checkValue t.relation.name c v := by
  change checkValue t.relation.name (t.relation.columns[i]?.getD default) v = _
  rw [there]
  rfl

theorem checkRow_eq_ok_iff {t : Table} {row : Row} :
    t.checkRow row = .ok () ↔ t.relation.Admits row := by
  unfold checkRow Bounded.checkRow Relation.Admits
  split
  · rename_i hlen
    rw [Bounded.outcome_forM, forM_eq_ok_iff, and_iff_right hlen]
    constructor
    · intro h i c v hc hv
      have passed := h (v, i) (List.mem_zipIdx_iff_getElem?.mpr hv)
      exact checkValue_eq_ok_iff.mp ((outcome_checkValueAt hc).symm.trans passed)
    · rintro h ⟨v, i⟩ he
      have hv := List.mem_zipIdx_iff_getElem?.mp he
      have inside : i < t.relation.columns.length := by
        change i < t.relation.arity
        rw [← hlen]
        exact (List.getElem?_eq_some_iff.mp hv).1
      have hc := List.getElem?_eq_getElem inside
      exact (outcome_checkValueAt hc).trans (checkValue_eq_ok_iff.mpr (h i _ v hc hv))
  · rename_i hlen
    simp only [hlen, false_and, iff_false]
    nofun

theorem outcome_checkAssignment_eq_ok_iff {t : Table} {i : Nat} {v : Value} :
    Bounded.outcome (Bounded.checkAssignment t i v) = .ok () ↔
      t.relation.isKeyColumn i = false ∧ ∃ c, t.relation.columns[i]? = some c ∧ c.Admits v := by
  unfold Bounded.checkAssignment
  cases hc : t.relation.columns[i]? with
  | none => exact iff_of_false nofun nofun
  | some c =>
      cases hk : t.relation.isKeyColumn i with
      | true => exact iff_of_false nofun nofun
      | false => simp [outcome_checkValueAt hc, checkValue_eq_ok_iff]

theorem checkAssignments_eq_ok_iff {t : Table} {assignments : List (Nat × Value)} :
    t.checkAssignments assignments = .ok () ↔ t.relation.AdmitsAll assignments := by
  unfold checkAssignments Bounded.checkAssignments Relation.AdmitsAll
  rw [Bounded.outcome_forM, forM_eq_ok_iff]
  exact forall₂_congr fun _ _ => outcome_checkAssignment_eq_ok_iff

/-! ## What a write does -/

/-- The rows of a temporal table are chains. -/
def Keeps (t : Table) (chains : OrderedMap Key VersionChain) : Prop := t.rows = .temporal chains

def putChain (t : Table) (chains : OrderedMap Key VersionChain) (k : Key) (c : VersionChain) :
    Table :=
  { t with rows := .temporal (chains.insert k c) }

variable {t : Table} {chains : OrderedMap Key VersionChain}

theorem insert_cases (h : t.Keeps chains) (row : Row) (now : Instant) :
    (∃ e, t.insert row now = .error e) ∨
    (t.relation.Admits row ∧
      ∃ c, Follows (chains.find? (t.relation.keyOf row)) (.insert row now) c ∧
        t.insert row now = .ok (t.putChain chains (t.relation.keyOf row) c)) := by
  unfold Keeps at h
  rw [insert_eq]
  unfold add
  cases hcheck : t.checkRow row with
  | error e => exact .inl ⟨e, rfl⟩
  | ok u =>
      have fits := checkRow_eq_ok_iff.mp hcheck
      simp only [h, bind, Except.bind]
      cases hfind : chains.find? (t.relation.keyOf row) with
      | none => exact .inr ⟨fits, .new row now, .begin row now, rfl⟩
      | some c =>
          cases hcurrent : c.current? with
          | some v => exact .inl ⟨_, if_pos (by rw [hcurrent]; rfl)⟩
          | none =>
              refine .inr ⟨fits, c.reopen row now, .reopen row now hcurrent, ?_⟩
              exact if_neg (by rw [hcurrent]; exact Bool.false_ne_true)

/-- An update of a temporal table goes on with the chain of its key. -/
theorem update_of_keeps (h : t.Keeps chains) (k : Key) (assignments : List (Nat × Value))
    (now : Instant) :
    t.update k assignments now = t.checkAssignments assignments >>= fun _ =>
      .ok (match (chains.find? k).bind fun c => c.supersede? (assign c.last.row assignments) now with
        | none => (.noMatch, t)
        | some c => (.applied, t.putChain chains k c)) := by
  unfold Keeps at h
  rw [update_eq]
  unfold get? replace
  rw [h]
  refine bind_congr fun _ => congrArg Except.ok ?_
  dsimp only
  cases chains.find? k with
  | none => rfl
  | some c =>
      rw [Option.bind_some, Option.bind_some]
      have present : c.at? none = c.current? := rfl
      rw [present]
      cases hcurrent : c.current? with
      | none =>
          have closed : c.supersede? (assign c.last.row assignments) now = none :=
            VersionChain.supersede?_eq_none_iff.mpr hcurrent
          rw [closed]
          rfl
      | some v =>
          obtain ⟨-, rfl⟩ := VersionChain.current?_eq_some_iff.mp hcurrent
          rfl

theorem update_cases (h : t.Keeps chains) (k : Key) (assignments : List (Nat × Value))
    (now : Instant) :
    (∃ e, t.update k assignments now = .error e) ∨
    t.update k assignments now = .ok (.noMatch, t) ∨
    (t.relation.AdmitsAll assignments ∧
      ∃ c, Follows (chains.find? k) (.update k assignments now) c ∧
        t.update k assignments now = .ok (.applied, t.putChain chains k c)) := by
  rw [update_of_keeps h]
  cases hcheck : t.checkAssignments assignments with
  | error e => exact .inl ⟨e, rfl⟩
  | ok u =>
      have fits := checkAssignments_eq_ok_iff.mp hcheck
      rw [ok_bind]
      cases hfind : chains.find? k with
      | none => exact .inr (.inl rfl)
      | some c =>
          rw [Option.bind_some]
          cases done : c.supersede? (assign c.last.row assignments) now with
          | none => exact .inr (.inl rfl)
          | some c' => exact .inr (.inr ⟨fits, c', .supersede done, rfl⟩)

theorem delete_cases (h : t.Keeps chains) (k : Key) (now : Instant) :
    t.delete k now = (.noMatch, t) ∨
    ∃ c, Follows (chains.find? k) (.delete k now) c ∧
      t.delete k now = (.applied, t.putChain chains k c) := by
  unfold Keeps at h
  unfold delete
  simp only [h]
  cases hfind : chains.find? k with
  | none => exact .inl rfl
  | some c =>
      cases done : c.close? now with
      | none => exact .inl (by simp only [Option.bind_some, done])
      | some c' => exact .inr ⟨c', .close done, by simp only [Option.bind_some, done]; rfl⟩

/-- A write on a temporal table has no effect, or puts the chain that it makes in the place of the
chain of its key. -/
theorem step_cases (h : t.Keeps chains) (w : Write) :
    (t.tookEffect w = false ∧ (t.perform w).2 = t) ∨
    (t.tookEffect w = true ∧ t.relation.AdmitsWrite w ∧
      ∃ c, Follows (chains.find? (w.key t.relation)) w c ∧
        (t.perform w).2 = t.putChain chains (w.key t.relation) c) := by
  cases w with
  | insert row now =>
      rcases insert_cases h row now with ⟨e, he⟩ | ⟨fits, c, done, he⟩
      · exact .inl (by simp only [tookEffect, perform, he, and_self])
      · exact .inr ⟨by simp only [tookEffect, perform, he], fits, c, done,
          by simp only [perform, he, Write.key]⟩
  | update k assignments now =>
      rcases update_cases h k assignments now with ⟨e, he⟩ | he | ⟨fits, c, done, he⟩
      · exact .inl (by simp only [tookEffect, perform, he, and_self])
      · exact .inl (by simp only [tookEffect, perform, he, and_self])
      · exact .inr ⟨by simp only [tookEffect, perform, he], fits, c, done,
          by simp only [perform, he, Write.key]⟩
  | delete k now =>
      rcases delete_cases h k now with he | ⟨c, done, he⟩
      · exact .inl (by simp only [tookEffect, perform, he, and_self])
      · exact .inr ⟨by simp only [tookEffect, perform, he], trivial, c, done,
          by simp only [perform, he, Write.key]⟩

/-! ## Runs on temporal tables -/

theorem log_snoc (t : Table) (ws : List Write) (w : Write) (k : Key) :
    t.log (ws ++ [w]) k =
      t.log ws k ++ if (t.run ws).tookEffect w = true ∧ w.key t.relation = k then [w] else [] := by
  rw [log_append]
  unfold effective effective
  cases (t.run ws).tookEffect w <;> by_cases hk : w.key t.relation = k <;> simp [hk]

/-- Chains that record, for every key, what its log says, and none where it says nothing. -/
def Records (r : Relation) (logOf : Key → List Write)
    (chains : OrderedMap Key VersionChain) : Prop :=
  ∀ k, (chains.find? k = none ∧ logOf k = []) ∨
    ∃ c, chains.find? k = some c ∧ Recorded r (logOf k) c

theorem Records.insert {r : Relation} {logOf logOf' : Key → List Write} {w : Write}
    {c : VersionChain} (h : Records r logOf chains) (fits : r.AdmitsWrite w)
    (done : Follows (chains.find? (w.key r)) w c)
    (hlog : ∀ k, logOf' k = logOf k ++ if w.key r = k then [w] else []) :
    Records r logOf' (chains.insert (w.key r) c) := by
  intro k
  rw [OrderedMap.find?_insert, hlog]
  by_cases hk : w.key r = k
  · subst hk
    right
    refine ⟨c, by rw [Std.ReflOrd.compare_self]; rfl, ?_⟩
    rw [if_pos rfl]
    rcases h (w.key r) with ⟨hnone, hempty⟩ | ⟨c₀, hsome, hrec⟩
    · rw [hnone] at done
      rw [hempty]
      exact .first fits done
    · rw [hsome] at done
      exact .next hrec fits done
  · have hne : compare (w.key r) k ≠ .eq := fun hc => hk (Std.LawfulEqOrd.eq_of_compare hc)
    rw [if_neg hne, if_neg hk, List.append_nil]
    exact h k

/-- **Every run keeps a record.** Whatever the writes and their instants are, a temporal table holds
just the chains that record the logs of its keys. -/
theorem run_records {r : Relation} (temporal : r.temporal = true) (ws : List Write) :
    ∃ chains, (new r).run ws = ⟨r, .temporal chains⟩ ∧ Records r ((new r).log ws) chains := by
  induction ws using List.reverseRecOn with
  | nil =>
      refine ⟨.empty, ?_, fun k => .inl ⟨OrderedMap.find?_empty k, rfl⟩⟩
      simp [run, new, temporal]
  | append_singleton ws w ih =>
      obtain ⟨chains, hrun, hrec⟩ := ih
      have hlog := (new r).log_snoc ws w
      rw [run_snoc]
      rw [hrun] at hlog ⊢
      rcases step_cases (t := ⟨r, .temporal chains⟩) rfl w with
        ⟨noEffect, same⟩ | ⟨effect, fits, c, done, after⟩
      · refine ⟨chains, same, fun k => ?_⟩
        rw [hlog, noEffect, if_neg (fun h => Bool.false_ne_true h.1), List.append_nil]
        exact hrec k
      · refine ⟨chains.insert (w.key r) c, after, hrec.insert fits done fun k => ?_⟩
        rw [hlog, effect]
        simp only [true_and]
        rfl

end Table

end TemporalDB
