import Mathlib.Data.List.Induction
import TemporalDB.OrderedMap

/-!
# Looking up in maps

What is found after one key was set or erased, and in the map of what a function makes of the values
of a map, which has the keys whose values it takes, in the same order.
-/

namespace TemporalDB.OrderedMap

variable {κ ν μ : Type} [Ord κ]

/-- The map of what a function makes of the values, without the values that it does not take. -/
def filterMap (f : ν → Option μ) (m : OrderedMap κ ν) : OrderedMap κ μ where
  entries := m.entries.filterMap fun e => (f e.2).map fun v => (e.1, v)
  ascending := by
    refine List.Pairwise.filterMap _ ?_ m.ascending
    intro a b hab x hx y hy
    obtain ⟨v, -, rfl⟩ := Option.map_eq_some_iff.mp hx
    obtain ⟨w, -, rfl⟩ := Option.map_eq_some_iff.mp hy
    exact hab

theorem nodup_of_ascending [Std.ReflOrd κ] {l : List κ}
    (h : l.Pairwise fun a b => compare a b = .lt) : l.Nodup := by
  refine h.imp fun {a b} before same => ?_
  rw [same, Std.ReflOrd.compare_self] at before
  cases before

theorem values_filterMap (f : ν → Option μ) (m : OrderedMap κ ν) :
    (m.filterMap f).values = m.values.filterMap f := by
  unfold values filterMap
  rw [List.map_filterMap, List.filterMap_map]
  congr 1
  funext e
  rw [Option.map_map]
  exact congrFun Option.map_id (f e.2)

theorem find?_filterMap [Std.TransOrd κ] [Std.LawfulEqOrd κ] (f : ν → Option μ)
    (m : OrderedMap κ ν) (k : κ) : (m.filterMap f).find? k = (m.find? k).bind f := by
  apply Option.ext
  intro v
  rw [find?_eq_some_iff, Option.bind_eq_some_iff]
  unfold filterMap
  rw [List.mem_filterMap]
  constructor
  · rintro ⟨e, he, hv⟩
    obtain ⟨v', hv', heq⟩ := Option.map_eq_some_iff.mp hv
    obtain ⟨rfl, rfl⟩ := Prod.mk.inj heq
    exact ⟨e.2, find?_eq_some_iff.mpr he, hv'⟩
  · rintro ⟨w, hw, hv⟩
    exact ⟨(k, w), find?_eq_some_iff.mp hw, by rw [hv]; rfl⟩

theorem ofList_append_singleton [Std.TransOrd κ] {l : List (κ × ν)} {last : κ × ν} :
    OrderedMap.ofList (l ++ [last]) = (OrderedMap.ofList l).insert last.1 last.2 := by
  unfold OrderedMap.ofList
  rw [List.foldl_append]
  rfl

section Change

variable [Std.TransOrd κ] [Std.LawfulEqOrd κ] {m : OrderedMap κ ν} {k x : κ} {v : ν}

theorem find?_insert_self : (m.insert k v).find? k = some v := by
  rw [find?_insert, if_pos Std.ReflOrd.compare_self]

theorem find?_insert_of_ne (h : x ≠ k) : (m.insert k v).find? x = m.find? x := by
  rw [find?_insert, if_neg]
  intro same
  exact h (Std.LawfulEqOrd.eq_of_compare same).symm

theorem find?_erase_self : (m.erase k).find? k = none := by
  rw [find?_erase, if_pos Std.ReflOrd.compare_self]

theorem find?_erase_of_ne (h : x ≠ k) : (m.erase k).find? x = m.find? x := by
  rw [find?_erase, if_neg]
  intro same
  exact h (Std.LawfulEqOrd.eq_of_compare same).symm

theorem erase_of_find?_eq_none (h : m.find? k = none) : m.erase k = m := by
  apply ext
  intro x
  by_cases same : x = k
  · rw [same, find?_erase_self, h]
  · rw [find?_erase_of_ne same]

theorem insert_of_find?_eq_some (h : m.find? k = some v) : m.insert k v = m := by
  apply ext
  intro x
  by_cases same : x = k
  · rw [same, find?_insert_self, h]
  · rw [find?_insert_of_ne same]

def put (m : OrderedMap κ ν) (k : κ) (held : Option ν) : OrderedMap κ ν :=
  held.elim (m.erase k) (m.insert k)

theorem find?_put_self {held : Option ν} : (m.put k held).find? k = held := by
  cases held with
  | none => exact find?_erase_self
  | some v => exact find?_insert_self

theorem find?_put_of_ne {held : Option ν} (h : x ≠ k) : (m.put k held).find? x = m.find? x := by
  cases held with
  | none => exact find?_erase_of_ne h
  | some v => exact find?_insert_of_ne h

theorem put_of_find? {held : Option ν} (h : m.find? k = held) : m.put k held = m := by
  subst h
  cases h : m.find? k with
  | none => exact erase_of_find?_eq_none h
  | some v => exact insert_of_find?_eq_some h

/-- What different keys hold can be put there in any order. -/
theorem put_comm {held held' : Option ν} (ne : k ≠ x) :
    (m.put k held).put x held' = (m.put x held').put k held := by
  apply ext
  intro y
  by_cases first : y = k
  · subst first
    rw [find?_put_of_ne ne, find?_put_self, find?_put_self]
  · rw [find?_put_of_ne first]
    by_cases second : y = x
    · subst second
      rw [find?_put_self, find?_put_self]
    · rw [find?_put_of_ne second, find?_put_of_ne second, find?_put_of_ne first]

theorem values_insert_perm (h : m.find? k = none) : (m.insert k v).values.Perm (v :: m.values) := by
  have absent : ∀ e ∈ m.entries, compare k e.1 ≠ .eq := by
    intro e he same
    have held := find?_eq_some_iff.mpr he
    rw [← Std.LawfulEqOrd.eq_of_compare same, h] at held
    cases held
  have entries : (insertEntry k v m.entries).Perm ((k, v) :: m.entries) := by
    generalize m.entries = entries at absent
    induction entries with
    | nil => exact .refl _
    | cons e rest ih =>
        obtain ⟨here, absent⟩ := List.forall_mem_cons.mp absent
        unfold insertEntry
        split
        · exact .refl _
        · contradiction
        · exact ((ih absent).cons e).trans (.swap _ _ _)
  exact entries.map (·.2)

theorem values_perm_erase (h : m.find? k = some v) :
    m.values.Perm (v :: (m.erase k).values) := by
  have again : (m.erase k).insert k v = m := by
    apply ext
    intro x
    by_cases same : x = k
    · rw [same, find?_insert_self, h]
    · rw [find?_insert_of_ne same, find?_erase_of_ne same]
  have put := values_insert_perm (v := v) (find?_erase_self (m := m) (k := k))
  rwa [again] at put

/-- The value that is put in takes the place of the one before. -/
theorem values_insert_perm_erase : (m.insert k v).values.Perm (v :: (m.erase k).values) := by
  have again : (m.insert k v).erase k = m.erase k := by
    apply ext
    intro x
    by_cases same : x = k
    · rw [same, find?_erase_self, find?_erase_self]
    · rw [find?_erase_of_ne same, find?_erase_of_ne same, find?_insert_of_ne same]
  have taken := values_perm_erase (find?_insert_self (m := m) (k := k) (v := v))
  rwa [again] at taken

def All (P : ν → Prop) (m : OrderedMap κ ν) : Prop := ∀ k v, m.find? k = some v → P v

variable {P : ν → Prop}

theorem All.insert (h : m.All P) (k : κ) (hv : P v) : (m.insert k v).All P := by
  intro x w found
  by_cases same : x = k
  · subst same
    rw [find?_insert_self] at found
    exact Option.some.inj found ▸ hv
  · rw [find?_insert_of_ne same] at found
    exact h x w found

theorem All.ofList {l : List (κ × ν)} (h : ∀ e ∈ l, P e.2) : (OrderedMap.ofList l).All P := by
  have from_any (start : OrderedMap κ ν) (hstart : start.All P) :
      (l.foldl (fun m e => m.insert e.1 e.2) start).All P := by
    induction l generalizing start with
    | nil => exact hstart
    | cons e rest ih =>
        obtain ⟨he, hrest⟩ := List.forall_mem_cons.mp h
        exact ih hrest _ (hstart.insert e.1 he)
  exact from_any .empty fun _ _ found => nomatch found

theorem mem_of_find?_ofList {l : List (κ × ν)} (h : (OrderedMap.ofList l).find? k = some v) :
    (k, v) ∈ l := by
  induction l using List.reverseRecOn with
  | nil => cases h
  | append_singleton l last ih =>
      rw [ofList_append_singleton] at h
      by_cases same : k = last.1
      · rw [same, find?_insert_self] at h
        rw [same, ← Option.some.inj h]
        exact List.mem_append_right l List.mem_cons_self
      · rw [find?_insert_of_ne same] at h
        exact List.mem_append_left _ (ih h)

/-- Nothing is found in the map of entries but under their keys. -/
theorem find?_ofList_eq_none_iff {l : List (κ × ν)} :
    (OrderedMap.ofList l).find? k = none ↔ k ∉ l.map (·.1) := by
  induction l using List.reverseRecOn with
  | nil => simp [OrderedMap.ofList]
  | append_singleton l last ih =>
      rw [ofList_append_singleton, List.map_append, List.mem_append, not_or, ← ih,
        List.map_singleton, List.mem_singleton]
      by_cases same : k = last.1
      · rw [same, find?_insert_self]
        simp
      · rw [find?_insert_of_ne same]
        simp [same]

theorem find?_ofList_of_mem {l : List (κ × ν)} (nodup : (l.map (·.1)).Nodup) {e : κ × ν}
    (he : e ∈ l) : (OrderedMap.ofList l).find? e.1 = some e.2 := by
  induction l using List.reverseRecOn with
  | nil => cases he
  | append_singleton l last ih =>
      rw [List.map_append, List.nodup_append] at nodup
      obtain ⟨nodup, -, apart⟩ := nodup
      rw [ofList_append_singleton]
      rcases List.mem_append.mp he with before | here
      · rw [find?_insert_of_ne (apart e.1 (List.mem_map_of_mem before) last.1 List.mem_cons_self)]
        exact ih nodup before
      · obtain rfl := List.mem_singleton.mp here
        exact find?_insert_self

/-- The map of items under their keys, if these differ, is looked up as the items are. -/
theorem find?_ofList_map {α : Type} {items : List α} {key : α → κ} {f : α → ν}
    [DecidableEq κ] (nodup : (items.map key).Nodup) (k : κ) :
    (OrderedMap.ofList (items.map fun a => (key a, f a))).find? k =
      (items.find? fun a => key a = k).map f := by
  cases found : items.find? fun a => key a = k with
  | some a =>
      have same : key a = k := by simpa using List.find?_some found
      have distinct : ((items.map fun a => (key a, f a)).map (·.1)).Nodup := by
        rw [List.map_map]
        exact nodup
      have held := find?_ofList_of_mem distinct
        (List.mem_map_of_mem (f := fun a => (key a, f a)) (List.mem_of_find?_eq_some found))
      rwa [same] at held
  | none =>
      rw [Option.map_none, find?_ofList_eq_none_iff, List.map_map]
      intro held
      obtain ⟨a, ha, same⟩ := List.mem_map.mp held
      exact List.find?_eq_none.mp found a ha (decide_eq_true same)

/-- The map of entries whose keys differ has all their values. -/
theorem values_ofList_perm {l : List (κ × ν)} (nodup : (l.map (·.1)).Nodup) :
    (OrderedMap.ofList l).values.Perm (l.map (·.2)) := by
  induction l using List.reverseRecOn with
  | nil => exact .refl _
  | append_singleton l last ih =>
      rw [List.map_append, List.nodup_append] at nodup
      obtain ⟨nodup, -, apart⟩ := nodup
      have new : (OrderedMap.ofList l).find? last.1 = none := by
        rw [Option.eq_none_iff_forall_ne_some]
        intro v found
        exact apart _ (List.mem_map_of_mem (mem_of_find?_ofList found)) last.1 List.mem_cons_self rfl
      rw [ofList_append_singleton, List.map_append]
      exact (values_insert_perm new).trans
        (((ih nodup).cons last.2).trans (List.perm_append_singleton _ _).symm)

theorem All.mem_entries (h : m.All P) {e : κ × ν} (he : e ∈ m.entries) : P e.2 :=
  h e.1 e.2 (find?_eq_some_iff.mpr he)

end Change

end TemporalDB.OrderedMap
