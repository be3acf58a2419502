/-!
# Maps in key order

A map is the list of its entries in ascending order of their keys, so two maps with the same
entries are the same map. `find?_insert` and `find?_erase` say what the operations do to look-ups,
and `ext` that look-ups determine a map.
-/

namespace TemporalDB

/-- Entries in ascending order of their keys. -/
structure OrderedMap (κ ν : Type) [Ord κ] where
  entries : List (κ × ν)
  ascending : entries.Pairwise fun a b => compare a.1 b.1 = .lt

namespace OrderedMap

variable {κ ν : Type} [Ord κ]

def empty : OrderedMap κ ν := ⟨[], .nil⟩

def values (m : OrderedMap κ ν) : List ν := m.entries.map (·.2)

def keys (m : OrderedMap κ ν) : List κ := m.entries.map (·.1)

def size (m : OrderedMap κ ν) : Nat := m.entries.length

def find? (m : OrderedMap κ ν) (k : κ) : Option ν :=
  (m.entries.find? fun e => compare e.1 k = .eq).map (·.2)

/-- Puts an entry in its place, or in the place of the entry with its key. -/
def insertEntry (k : κ) (v : ν) : List (κ × ν) → List (κ × ν)
  | [] => [(k, v)]
  | e :: rest =>
    match compare k e.1 with
    | .lt => (k, v) :: e :: rest
    | .eq => (k, v) :: rest
    | .gt => e :: insertEntry k v rest

theorem mem_insertEntry {k : κ} {v : ν} {l : List (κ × ν)} {e : κ × ν}
    (h : e ∈ insertEntry k v l) : e = (k, v) ∨ e ∈ l := by
  induction l with
  | nil => simpa [insertEntry] using h
  | cons a rest ih =>
    unfold insertEntry at h
    split at h
    · simpa using h
    · rcases List.mem_cons.1 h with h | h
      · exact .inl h
      · exact .inr (List.mem_cons_of_mem _ h)
    · rcases List.mem_cons.1 h with h | h
      · exact .inr (h ▸ List.mem_cons_self)
      · exact (ih h).imp id (List.mem_cons_of_mem _)

theorem ascending_insertEntry [Std.TransOrd κ] (k : κ) (v : ν) {l : List (κ × ν)}
    (h : l.Pairwise fun a b => compare a.1 b.1 = .lt) :
    (insertEntry k v l).Pairwise fun a b => compare a.1 b.1 = .lt := by
  induction l with
  | nil => simp [insertEntry]
  | cons a rest ih =>
    obtain ⟨ha, hr⟩ := List.pairwise_cons.1 h
    unfold insertEntry
    split
    · rename_i hk
      refine List.pairwise_cons.2 ⟨fun e he => ?_, h⟩
      rcases List.mem_cons.1 he with rfl | he
      · exact hk
      · exact Std.TransCmp.lt_trans hk (ha e he)
    · rename_i hk
      exact List.pairwise_cons.2 ⟨fun e he => Std.TransCmp.lt_of_eq_of_lt hk (ha e he), hr⟩
    · rename_i hk
      refine List.pairwise_cons.2 ⟨fun e he => ?_, ih hr⟩
      -- behind the head come the new entry, which is greater, and what was there before
      rcases mem_insertEntry he with rfl | he
      · exact Std.OrientedCmp.lt_of_gt hk
      · exact ha e he

def insert [Std.TransOrd κ] (m : OrderedMap κ ν) (k : κ) (v : ν) : OrderedMap κ ν :=
  ⟨insertEntry k v m.entries, ascending_insertEntry k v m.ascending⟩

def erase (m : OrderedMap κ ν) (k : κ) : OrderedMap κ ν :=
  ⟨m.entries.filter fun e => compare e.1 k ≠ .eq, m.ascending.filter _⟩

/-- The map of entries; of two with one key the later counts. -/
def ofList [Std.TransOrd κ] (l : List (κ × ν)) : OrderedMap κ ν :=
  l.foldl (fun m e => m.insert e.1 e.2) empty

/-! ## Look-ups -/

@[simp] theorem find?_empty (x : κ) : (empty : OrderedMap κ ν).find? x = none := rfl

theorem find?_insertEntry [Std.TransOrd κ] (k : κ) (v : ν) (l : List (κ × ν)) (x : κ)
    (h : l.Pairwise fun a b => compare a.1 b.1 = .lt) :
    ((insertEntry k v l).find? fun e => compare e.1 x = .eq).map (·.2) =
      if compare k x = .eq then some v else (l.find? fun e => compare e.1 x = .eq).map (·.2) := by
  induction l with
  | nil => by_cases hx : compare k x = .eq <;> simp [insertEntry, hx]
  | cons a rest ih =>
    obtain ⟨ha, hr⟩ := List.pairwise_cons.1 h
    unfold insertEntry
    split
    · by_cases hx : compare k x = .eq <;> simp [hx]
    · rename_i hk
      by_cases hx : compare k x = .eq
      · simp [hx]
      · -- the entry that is replaced has the same key, so it is not the one looked up either
        have hax : compare a.1 x ≠ .eq := fun hc => hx (Std.TransCmp.eq_trans hk hc)
        simp [hx, hax]
    · rename_i hk
      by_cases hax : compare a.1 x = .eq
      · have hx : compare k x ≠ .eq := fun hc => by
          have := Std.TransCmp.eq_trans hc (Std.OrientedCmp.eq_symm hax)
          rw [hk] at this
          cases this
        simp [hx, hax]
      · simp only [List.find?_cons, hax, decide_false]
        exact ih hr

theorem find?_insert [Std.TransOrd κ] (m : OrderedMap κ ν) (k : κ) (v : ν) (x : κ) :
    (m.insert k v).find? x = if compare k x = .eq then some v else m.find? x :=
  find?_insertEntry k v m.entries x m.ascending

theorem find?_erase [Std.TransOrd κ] (m : OrderedMap κ ν) (k x : κ) :
    (m.erase k).find? x = if compare k x = .eq then none else m.find? x := by
  unfold find? erase
  simp only [List.find?_filter]
  by_cases hx : compare k x = .eq
  · rw [if_pos hx, Option.map_eq_none_iff, List.find?_eq_none]
    intro e _ h
    simp only [ne_eq, decide_not, decide_eq_true_eq, Bool.not_eq_true',
      decide_eq_false_iff_not] at h
    exact h.1 (Std.TransCmp.eq_trans h.2 (Std.OrientedCmp.eq_symm hx))
  · have : (fun e : κ × ν => decide (compare e.1 k ≠ .eq) && decide (compare e.1 x = .eq)) =
        fun e => decide (compare e.1 x = .eq) := by
      funext e
      by_cases he : compare e.1 x = .eq
      · have : compare e.1 k ≠ .eq := fun hc =>
          hx (Std.TransCmp.eq_trans (Std.OrientedCmp.eq_symm hc) he)
        simp [he, this]
      · simp [he]
    simp_all

theorem find?_eq_some_iff [Std.TransOrd κ] [Std.LawfulEqOrd κ] {m : OrderedMap κ ν} {k : κ}
    {v : ν} : m.find? k = some v ↔ (k, v) ∈ m.entries := by
  obtain ⟨l, hl⟩ := m
  induction l with
  | nil => simp [find?]
  | cons a rest ih =>
    obtain ⟨ha, hr⟩ := List.pairwise_cons.1 hl
    have ih := ih hr
    unfold find? at ih ⊢
    by_cases hk : compare a.1 k = .eq
    · have : a.1 = k := Std.LawfulEqOrd.eq_of_compare hk
      subst this
      -- the keys ascend, so the rest has no entry for the key of the head
      have hn : (a.1, v) ∉ rest := fun hm => by
        have := ha _ hm
        rw [Std.ReflOrd.compare_self] at this
        cases this
      simp [hn, Prod.ext_iff, eq_comm]
    · have hne : (k, v) ≠ a := fun h => hk (by simp [← h])
      simp only [List.find?_cons, hk, decide_false, List.mem_cons, hne, false_or]
      exact ih

theorem ext [Std.TransOrd κ] [Std.LawfulEqOrd κ] {m n : OrderedMap κ ν}
    (h : ∀ k, m.find? k = n.find? k) : m = n := by
  have hm : ∀ e, e ∈ m.entries ↔ e ∈ n.entries := fun ⟨k, v⟩ => by
    rw [← find?_eq_some_iff, ← find?_eq_some_iff, h]
  obtain ⟨l, hl⟩ := m
  obtain ⟨l', hl'⟩ := n
  simp only [mk.injEq]
  have antisymm (a b : κ × ν) (_ : a ∈ l) (_ : b ∈ l') (hab : compare a.1 b.1 = .lt)
      (hba : compare b.1 a.1 = .lt) : a = b := by
    rw [Std.OrientedOrd.eq_swap, hba] at hab
    cases hab
  have nodup {l : List (κ × ν)} (h : l.Pairwise fun a b => compare a.1 b.1 = .lt) : l.Nodup :=
    h.imp fun {a b} hab hc => by
      subst hc
      rw [Std.ReflOrd.compare_self] at hab
      cases hab
  have perm : l.Perm l' := (List.perm_ext_iff_of_nodup (nodup hl) (nodup hl')).2 hm
  exact perm.eq_of_pairwise antisymm hl hl'

end OrderedMap

end TemporalDB
