import TemporalDB.Proofs.Table.Present

/-!
# What a write leaves alone

A write changes nothing but what its own key shows and has shown, and one that finds no row changes
nothing at all. A run of writes so leaves alone all keys that none of its writes is for. Whether an
update is refused depends on its assignments and the relation only, not on the rows.
-/

namespace TemporalDB.Table

variable {t t' t'' : Table} {keys more : List Key} {k : Key} {row : Row} {now : Instant}
  {assignments : List (Nat × Value)} {m : Mutation} {e : TableError}

theorem isTemporal_new (r : Relation) : (new r).isTemporal = r.temporal := by
  unfold new isTemporal
  cases r.temporal <;> rfl

/-- The tables are of one relation and kind, and but for some keys they agree on every read and on
the versions. -/
structure ChangesOnly (keys : List Key) (t t' : Table) : Prop where
  relation : t'.relation = t.relation
  kind : t'.isTemporal = t.isTemporal
  reads : ∀ k ∉ keys, ∀ asOf, t'.get? k asOf = t.get? k asOf
  history : ∀ k ∉ keys, t'.history? k = t.history? k

namespace ChangesOnly

theorem refl (keys : List Key) (t : Table) : ChangesOnly keys t t :=
  ⟨rfl, rfl, fun _ _ _ => rfl, fun _ _ => rfl⟩

theorem mono (h : ChangesOnly keys t t') (sub : keys ⊆ more) : ChangesOnly more t t' :=
  ⟨h.relation, h.kind, fun k hk => h.reads k (mt (@sub k) hk),
    fun k hk => h.history k (mt (@sub k) hk)⟩

theorem trans (h : ChangesOnly keys t t') (h' : ChangesOnly keys t' t'') :
    ChangesOnly keys t t'' where
  relation := h'.relation.trans h.relation
  kind := h'.kind.trans h.kind
  reads k hk asOf := (h'.reads k hk asOf).trans (h.reads k hk asOf)
  history k hk := (h'.history k hk).trans (h.history k hk)

end ChangesOnly

/-! ## One write -/

theorem changesOnly_putChain {chains : OrderedMap Key VersionChain} (h : t.Keeps chains) (k : Key)
    (c : VersionChain) : ChangesOnly [k] t (t.putChain chains k c) := by
  obtain ⟨r, rows⟩ := t
  obtain rfl : rows = .temporal chains := h
  have others : ∀ x ∉ [k], (chains.insert k c).find? x = chains.find? x := fun x hx =>
    OrderedMap.find?_insert_of_ne (List.mem_singleton.not.mp hx)
  refine ⟨rfl, rfl, fun x hx asOf => ?_, fun x hx => ?_⟩
  · unfold get? putChain
    simp only [others x hx]
  · unfold history? putChain
    simp only [others x hx]

theorem exists_perform_conventional (r : Relation) (rows : OrderedMap Key Row) (w : Write) :
    ∃ rows', (perform ⟨r, .conventional rows⟩ w).2 = ⟨r, .conventional rows'⟩ := by
  cases w with
  | insert row now =>
      unfold perform
      dsimp only
      split
      · rename_i t' h
        rw [insert_eq] at h
        obtain ⟨-, -, h⟩ := bind_eq_ok_iff.mp h
        dsimp only [add] at h
        split at h
        · cases h
        · cases h
          exact ⟨_, rfl⟩
      · exact ⟨rows, rfl⟩
  | update k assignments now =>
      unfold perform
      dsimp only
      split
      · rename_i m t' h
        rw [update_eq] at h
        obtain ⟨-, -, h⟩ := bind_eq_ok_iff.mp h
        dsimp only [get?, replace] at h
        cases held : rows.find? k with
        | none =>
            rw [held] at h
            cases h
            exact ⟨_, rfl⟩
        | some row =>
            rw [held] at h
            cases h
            exact ⟨_, rfl⟩
      · exact ⟨rows, rfl⟩
  | delete k now =>
      unfold perform delete
      dsimp only
      split
      · exact ⟨rows, rfl⟩
      · exact ⟨_, rfl⟩

/-- **A write changes its own key only.** -/
theorem changesOnly_perform (t : Table) (w : Write) :
    ChangesOnly [w.key t.relation] t (t.perform w).2 := by
  obtain ⟨r, chains | rows⟩ := t
  · rcases step_cases (t := ⟨r, .temporal chains⟩) rfl w with ⟨-, same⟩ | ⟨-, -, c, -, after⟩
    · rw [same]
      exact .refl _ _
    · rw [after]
      exact changesOnly_putChain (t := ⟨r, .temporal chains⟩) rfl _ c
  · obtain ⟨rows', after⟩ := exists_perform_conventional r rows w
    have present := present_perform ⟨r, .conventional rows⟩ w
    rw [after] at present ⊢
    have others : ∀ x ∉ [w.key r], rows'.find? x = rows.find? x := by
      intro x hx
      have ne : x ≠ w.key r := List.mem_singleton.not.mp hx
      rcases present with same | ⟨-, changed⟩
      · exact congrArg (·.find? x) same
      · change rows' = _ at changed
        rw [changed]
        cases w.replay _ with
        | none => exact OrderedMap.find?_erase_of_ne ne
        | some row => exact OrderedMap.find?_insert_of_ne ne
    exact ⟨rfl, rfl, fun x hx _ => others x hx, fun _ _ => rfl⟩

theorem perform_insert (h : t.insert row now = .ok t') : (t.perform (.insert row now)).2 = t' := by
  simp only [perform, h]

theorem perform_update (h : t.update k assignments now = .ok (m, t')) :
    (t.perform (.update k assignments now)).2 = t' := by
  simp only [perform, h]

/-! ## Runs of writes -/

theorem run_append (t : Table) (ws more : List Write) : t.run (ws ++ more) = (t.run ws).run more :=
  List.foldl_append

/-- **A run changes only the keys that its writes are for.** -/
theorem changesOnly_run (t : Table) (ws : List Write) :
    ChangesOnly (ws.map (·.key t.relation)) t (t.run ws) := by
  induction ws generalizing t with
  | nil => exact .refl _ _
  | cons w rest ih =>
      have first := changesOnly_perform t w
      have later := ih (t.perform w).2
      rw [first.relation] at later
      exact (first.mono (by simp)).trans (later.mono (List.subset_cons_self _ _))

/-! ## Writes that do nothing -/

theorem update_of_refused (h : t.checkAssignments assignments = .error e) :
    t.update k assignments now = .error e := by
  rw [update_eq, h]
  rfl

theorem replace_of_noMatch (h : (t.replace k row now).1 = .noMatch) :
    (t.replace k row now).2 = t := by
  unfold replace at h ⊢
  split at h <;> split at h
  · simp_all
  · cases h
  · simp_all
  · cases h

/-- An update whose assignments pass the check is carried out, and without a row to change it
changes nothing. -/
theorem update_of_checked (h : t.checkAssignments assignments = .ok ()) (k : Key) (now : Instant) :
    ∃ m t', t.update k assignments now = .ok (m, t') ∧ (m = .noMatch → t' = t) := by
  rw [update_eq, h, ok_bind]
  cases t.get? k none with
  | none => exact ⟨_, _, rfl, fun _ => rfl⟩
  | some row => exact ⟨_, _, rfl, replace_of_noMatch⟩

theorem delete_of_noMatch (h : (t.delete k now).1 = .noMatch) : (t.delete k now).2 = t := by
  unfold delete at h ⊢
  split at h <;> split at h
  · simp_all
  · cases h
  · simp_all
  · cases h

end TemporalDB.Table
