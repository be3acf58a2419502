import Mathlib.Data.List.Forall2

/-!
# Steps that can fail

What a step followed by another gives, when it gives anything, and likewise for a step that is
taken for every item of a list.
-/

namespace TemporalDB

variable {α β ε : Type}

theorem ok_bind {a : α} {f : α → Except ε β} : ((.ok a : Except ε α) >>= f) = f a := rfl

theorem bind_eq_ok_iff {x : Except ε α} {f : α → Except ε β} {b : β} :
    (x >>= f) = .ok b ↔ ∃ a, x = .ok a ∧ f a = .ok b := by
  cases x <;> simp [bind, Except.bind]

/-- The error of a step and what follows is that of the step, or of what follows. -/
theorem bind_eq_error_iff {x : Except ε α} {f : α → Except ε β} {e : ε} :
    (x >>= f) = .error e ↔ x = .error e ∨ ∃ a, x = .ok a ∧ f a = .error e := by
  cases x <;> simp [bind, Except.bind]

/-- A step goes on with what it gives, whatever its error is called. -/
theorem mapError_eq_ok_iff {ε' : Type} {x : Except ε α} {f : ε → ε'} {a : α} :
    x.mapError f = .ok a ↔ x = .ok a := by
  cases x <;> simp [Except.mapError]

theorem mapError_eq_error_iff {ε' : Type} {x : Except ε α} {f : ε → ε'} {e : ε'} :
    x.mapError f = .error e ↔ ∃ cause, x = .error cause ∧ f cause = e := by
  cases x <;> simp [Except.mapError]

theorem toOption_eq_some_iff {x : Except ε α} {a : α} : x.toOption = some a ↔ x = .ok a := by
  cases x <;> simp [Except.toOption]

theorem forM_eq_ok_iff {l : List α} {f : α → Except ε Unit} :
    l.forM f = .ok () ↔ ∀ a ∈ l, f a = .ok () := by
  induction l with
  | nil => simp [pure, Except.pure]
  | cons a rest ih =>
      change (f a >>= fun _ => rest.forM f) = .ok () ↔ _
      rw [List.forall_mem_cons, ← ih, bind_eq_ok_iff]
      exact ⟨fun ⟨_, h⟩ => h, fun h => ⟨(), h⟩⟩

theorem mapM_eq_ok_iff {l : List α} {f : α → Except ε β} {results : List β} :
    l.mapM f = .ok results ↔ List.Forall₂ (fun a b => f a = .ok b) l results := by
  induction l generalizing results with
  | nil =>
      rw [List.forall₂_nil_left_iff]
      exact ⟨fun h => (Except.ok.inj h).symm, fun h => h ▸ rfl⟩
  | cons a rest ih =>
      rw [List.mapM_cons, bind_eq_ok_iff]
      constructor
      · rintro ⟨b, hb, h⟩
        obtain ⟨others, hothers, h⟩ := bind_eq_ok_iff.mp h
        cases h
        exact .cons hb (ih.mp hothers)
      · rintro (_ | @⟨_, b, _, others, hb, hothers⟩)
        exact ⟨b, hb, bind_eq_ok_iff.mpr ⟨others, ih.mpr hothers, rfl⟩⟩

theorem exists_mapM_eq_ok_iff {l : List α} {f : α → Except ε β} :
    (∃ results, l.mapM f = .ok results) ↔ ∀ a ∈ l, ∃ b, f a = .ok b := by
  simp only [mapM_eq_ok_iff]
  induction l with
  | nil => simp
  | cons a rest ih =>
      rw [List.forall_mem_cons, ← ih]
      constructor
      · rintro ⟨_, _ | ⟨hb, hothers⟩⟩
        exact ⟨⟨_, hb⟩, _, hothers⟩
      · rintro ⟨⟨b, hb⟩, others, hothers⟩
        exact ⟨b :: others, .cons hb hothers⟩

/-- Each item of a list that is related to another one item by item is related to some item. -/
theorem exists_mem_of_forall₂ {R : α → β → Prop} {l : List α} {l' : List β}
    (h : List.Forall₂ R l l') : ∀ b ∈ l', ∃ a ∈ l, R a b := by
  induction h with
  | nil => exact List.forall_mem_nil _
  | @cons a b l l' hab _ ih =>
      rw [List.forall_mem_cons]
      refine ⟨⟨a, List.mem_cons_self, hab⟩, ?_⟩
      intro b' hb'
      obtain ⟨a', ha', h'⟩ := ih b' hb'
      exact ⟨a', List.mem_cons_of_mem _ ha', h'⟩

/-- The last items are related to each other, and those before them one by one. -/
theorem forall₂_append_singleton_iff {R : α → β → Prop} {l : List α} {a : α} {l' : List β} :
    List.Forall₂ R (l ++ [a]) l' ↔
      ∃ front b, List.Forall₂ R l front ∧ R a b ∧ l' = front ++ [b] := by
  rw [← List.forall₂_reverse_iff, List.reverse_append, List.reverse_singleton,
    List.singleton_append, List.forall₂_cons_left_iff]
  constructor
  · rintro ⟨b, back, hab, related, same⟩
    refine ⟨back.reverse, b, ?_, hab, ?_⟩
    · rw [← List.forall₂_reverse_iff, List.reverse_reverse]
      exact related
    · rw [← List.reverse_cons, ← same, List.reverse_reverse]
  · rintro ⟨front, b, related, hab, rfl⟩
    exact ⟨b, front.reverse, hab, List.forall₂_reverse_iff.mpr related, by simp⟩

theorem mem_of_mapM_eq_ok {l : List α} {f : α → Except ε β} {results : List β}
    (h : l.mapM f = .ok results) : ∀ b ∈ results, ∃ a ∈ l, f a = .ok b :=
  exists_mem_of_forall₂ (mapM_eq_ok_iff.mp h)

theorem exists_of_mapM_eq_error {l : List α} {f : α → Except ε β} {e : ε}
    (h : l.mapM f = .error e) : ∃ a ∈ l, f a = .error e := by
  induction l with
  | nil => cases h
  | cons a rest ih =>
      rw [List.mapM_cons] at h
      rcases bind_eq_error_iff.mp h with here | ⟨b, -, later⟩
      · exact ⟨a, List.mem_cons_self, here⟩
      · rcases bind_eq_error_iff.mp later with others | ⟨others, -, done⟩
        · obtain ⟨a', ha', h'⟩ := ih others
          exact ⟨a', List.mem_cons_of_mem _ ha', h'⟩
        · cases done

theorem exists_of_forM_eq_error {l : List α} {f : α → Except ε Unit} {e : ε}
    (h : l.forM f = .error e) : ∃ a ∈ l, f a = .error e := by
  induction l with
  | nil => cases h
  | cons a rest ih =>
      change (f a >>= fun _ => rest.forM f) = .error e at h
      rcases bind_eq_error_iff.mp h with here | ⟨b, -, later⟩
      · exact ⟨a, List.mem_cons_self, here⟩
      · obtain ⟨a', ha', h'⟩ := ih later
        exact ⟨a', List.mem_cons_of_mem _ ha', h'⟩

theorem foldlM_eq_error {l : List α} {f : β → α → Except ε β} {b : β} {e : ε}
    (h : l.foldlM f b = .error e) : ∃ before a after b', l = before ++ a :: after ∧
      before.foldlM f b = .ok b' ∧ f b' a = .error e := by
  induction l generalizing b with
  | nil => cases h
  | cons a rest ih =>
      rw [List.foldlM_cons] at h
      rcases bind_eq_error_iff.mp h with here | ⟨b', first, later⟩
      · exact ⟨[], a, rest, b, rfl, rfl, here⟩
      · obtain ⟨before, a', after, b'', rfl, done, failed⟩ := ih later
        refine ⟨a :: before, a', after, b'', rfl, ?_, failed⟩
        rw [List.foldlM_cons, first]
        exact done

theorem exists_of_foldlM_eq_error {l : List α} {f : β → α → Except ε β} {b : β} {e : ε}
    (h : l.foldlM f b = .error e) : ∃ b', ∃ a ∈ l, f b' a = .error e := by
  obtain ⟨before, a, after, b', rfl, -, failed⟩ := foldlM_eq_error h
  exact ⟨b', a, List.mem_append_right _ List.mem_cons_self, failed⟩

end TemporalDB
