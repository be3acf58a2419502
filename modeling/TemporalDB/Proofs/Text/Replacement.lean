import Mathlib.Data.List.Infix
import TemporalDB.Text.Replacement

/-!
# What replacing does

A placeholder is a text with an opening brace in front and none behind it, so that two of them never
overlap and none reaches into a text that begins with a brace. Replacing a placeholder then acts on
each part of a text for itself (`replace_append`), and the length of the outcome counts the places at
which the placeholder stood (`length_replace`).
-/

namespace TemporalDB.Text

variable {c : Char} {pattern pattern' new s u v rest : List Char}

def occurrences (pattern s : List Char) : Nat := s.tails.countP (pattern.isPrefixOf ·)

/-- A placeholder: a brace and, behind it, no brace that opens another one. -/
def IsPlaceholder (pattern : List Char) : Prop := ∃ name, pattern = '{' :: name ∧ '{' ∉ name

theorem IsPlaceholder.ne_nil (h : IsPlaceholder pattern) : pattern ≠ [] := by
  obtain ⟨name, rfl, -⟩ := h
  exact List.cons_ne_nil _ _

/-! ## Where a pattern stands -/

theorem occurrences_nil (h : pattern ≠ []) : occurrences pattern [] = 0 := by
  cases pattern with
  | nil => exact absurd rfl h
  | cons => rfl

theorem occurrences_cons_of_begins (h : pattern <+: c :: rest) :
    occurrences pattern (c :: rest) = occurrences pattern rest + 1 := by
  rw [occurrences, List.tails_cons, List.countP_cons, if_pos (List.isPrefixOf_iff_prefix.mpr h)]
  rfl

theorem occurrences_cons (h : ¬pattern <+: c :: rest) :
    occurrences pattern (c :: rest) = occurrences pattern rest := by
  rw [occurrences, List.tails_cons, List.countP_cons,
    if_neg fun begins => h (List.isPrefixOf_iff_prefix.mp begins)]
  rfl

theorem occurrences_le_cons : occurrences pattern rest ≤ occurrences pattern (c :: rest) := by
  by_cases begins : pattern <+: c :: rest
  · rw [occurrences_cons_of_begins begins]
    exact Nat.le_succ _
  · rw [occurrences_cons begins]

theorem occurrences_le_append (u : List Char) :
    occurrences pattern v ≤ occurrences pattern (u ++ v) := by
  induction u with
  | nil => exact Nat.le_refl _
  | cons c u ih => exact Nat.le_trans ih occurrences_le_cons

theorem IsPlaceholder.not_begins (h : IsPlaceholder pattern) (other : c ≠ '{') :
    ¬pattern <+: c :: rest := by
  obtain ⟨name, rfl, -⟩ := h
  intro begins
  exact other (List.cons_prefix_cons.mp begins).1.symm

/-- A placeholder that begins inside a text does not reach over a brace after it. -/
theorem IsPlaceholder.begins_of_append (h : IsPlaceholder pattern) (brace : ∀ d ∈ v.head?, d = '{')
    (begins : pattern <+: c :: u ++ v) : pattern <+: c :: u := by
  obtain ⟨name, rfl, closed⟩ := h
  obtain ⟨rest, text⟩ := begins
  rcases List.append_eq_append_iff.mp text with ⟨more, within, -⟩ | ⟨more, beyond, after⟩
  · exact ⟨more, within.symm⟩
  · cases more with
    | nil => exact ⟨[], by simpa using beyond⟩
    | cons d more =>
        obtain rfl := brace d (by rw [after]; rfl)
        have inside : '{' ∈ name := by
          rw [(List.cons.inj beyond).2]
          exact List.mem_append_right u List.mem_cons_self
        exact absurd inside closed

/-- The occurrences in two texts, of which the second begins with a brace, are those in both. -/
theorem IsPlaceholder.occurrences_append (h : IsPlaceholder pattern)
    (brace : ∀ d ∈ v.head?, d = '{') (u : List Char) :
    occurrences pattern (u ++ v) = occurrences pattern u + occurrences pattern v := by
  induction u with
  | nil => rw [occurrences_nil h.ne_nil, List.nil_append, Nat.zero_add]
  | cons c u ih =>
      by_cases begins : pattern <+: c :: u
      · have begins' : pattern <+: c :: (u ++ v) := begins.trans ⟨v, rfl⟩
        rw [List.cons_append, occurrences_cons_of_begins begins, occurrences_cons_of_begins begins',
          ih, Nat.add_right_comm]
      · have not' : ¬pattern <+: c :: (u ++ v) := fun begins' => begins (h.begins_of_append brace begins')
        rw [List.cons_append, occurrences_cons begins, occurrences_cons not', ih]

/-- A text without a brace holds no placeholder, and none reaches over it. -/
theorem IsPlaceholder.occurrences_plain_append (h : IsPlaceholder pattern) (plain : '{' ∉ u)
    (v : List Char) : occurrences pattern (u ++ v) = occurrences pattern v := by
  induction u with
  | nil => rfl
  | cons c u ih =>
      obtain ⟨other, plain⟩ := not_or.mp (List.mem_cons.not.mp plain)
      rw [List.cons_append, occurrences_cons (h.not_begins (Ne.symm other)), ih plain]

/-! ## Replacing -/

theorem replace_cons (h : ¬pattern <+: c :: rest) :
    replace pattern new (c :: rest) = c :: replace pattern new rest := by
  rw [replace, if_neg fun begins => h (List.isPrefixOf_iff_prefix.mp begins)]

theorem replace_pattern (h : pattern ≠ []) (rest : List Char) :
    replace pattern new (pattern ++ rest) = new ++ replace pattern new rest := by
  obtain ⟨c, more, rfl⟩ := List.exists_cons_of_ne_nil h
  have begins : (c :: more).isPrefixOf (c :: (more ++ rest)) = true :=
    List.isPrefixOf_iff_prefix.mpr ⟨rest, rfl⟩
  rw [List.cons_append, replace, if_pos begins, List.length_cons, Nat.add_sub_cancel,
    List.drop_left]

/-- A text is empty, or one of the patterns begins it, or a character at which none begins. -/
theorem segment_induction {motive : List Char → Prop} (patterns : List (List Char))
    (some : ∀ p ∈ patterns, p ≠ []) (nil : motive [])
    (begins : ∀ p ∈ patterns, ∀ rest, motive rest → motive (p ++ rest))
    (other : ∀ c rest, (∀ p ∈ patterns, ¬p <+: c :: rest) → motive rest → motive (c :: rest))
    (s : List Char) : motive s := by
  induction size : s.length using Nat.strong_induction_on generalizing s with
  | _ size ih =>
      cases s with
      | nil => exact nil
      | cons c rest =>
          by_cases there : ∃ p ∈ patterns, p <+: c :: rest
          · obtain ⟨p, mem, after, text⟩ := there
            -- no pattern is empty, so what is behind it is shorter
            have pos := List.length_pos_iff.mpr (some p mem)
            have total := congrArg List.length text
            rw [List.length_append] at total
            rw [← text]
            exact begins p mem after (ih _ (by omega) after rfl)
          · have less : rest.length < (c :: rest).length := Nat.lt_succ_self _
            rw [size] at less
            exact other c rest (fun p mem starts => there ⟨p, mem, starts⟩) (ih _ less rest rfl)

section

variable (h : IsPlaceholder pattern)
include h

theorem IsPlaceholder.induction {motive : List Char → Prop} (nil : motive [])
    (begins : ∀ rest, motive rest → motive (pattern ++ rest))
    (other : ∀ c rest, ¬pattern <+: c :: rest → motive rest → motive (c :: rest)) (s : List Char) :
    motive s :=
  segment_induction [pattern] (List.forall_mem_singleton.mpr h.ne_nil) nil
    (List.forall_mem_singleton.mpr begins)
    (fun c rest none => other c rest (none pattern List.mem_cons_self)) s

/-- The parts of a text, of which the second begins with a brace, are replaced each for itself. -/
theorem IsPlaceholder.replace_append (brace : ∀ d ∈ v.head?, d = '{') (u : List Char) :
    replace pattern new (u ++ v) = replace pattern new u ++ replace pattern new v := by
  induction u using h.induction with
  | nil => rw [replace, List.nil_append, List.nil_append]
  | begins rest ih =>
      rw [List.append_assoc, replace_pattern h.ne_nil, replace_pattern h.ne_nil, ih,
        List.append_assoc]
  | other c rest none ih =>
      have none' : ¬pattern <+: c :: (rest ++ v) := fun begins =>
        none (h.begins_of_append brace begins)
      rw [List.cons_append, replace_cons none, replace_cons none', ih, List.cons_append]

theorem IsPlaceholder.replace_plain_append (plain : '{' ∉ u) (v : List Char) :
    replace pattern new (u ++ v) = u ++ replace pattern new v := by
  induction u with
  | nil => rfl
  | cons c u ih =>
      obtain ⟨other, plain⟩ := not_or.mp (List.mem_cons.not.mp plain)
      rw [List.cons_append, replace_cons (h.not_begins (Ne.symm other)), ih plain, List.cons_append]

theorem IsPlaceholder.replace_self (s : List Char) : replace pattern pattern s = s := by
  induction s using h.induction with
  | nil => rw [replace]
  | begins rest ih => rw [replace_pattern h.ne_nil, ih]
  | other c rest none ih => rw [replace_cons none, ih]

theorem IsPlaceholder.occurrences_pattern_append (rest : List Char) :
    occurrences pattern (pattern ++ rest) = occurrences pattern rest + 1 := by
  obtain ⟨name, rfl, closed⟩ := h
  rw [List.cons_append, occurrences_cons_of_begins ⟨rest, rfl⟩,
    IsPlaceholder.occurrences_plain_append ⟨name, rfl, closed⟩ closed]

/-- **At each of its occurrences a placeholder gives way to the other text.** -/
theorem IsPlaceholder.length_replace (new s : List Char) :
    (replace pattern new s).length + occurrences pattern s * pattern.length =
      s.length + occurrences pattern s * new.length := by
  induction s using h.induction with
  | nil => rw [replace, occurrences_nil h.ne_nil, Nat.zero_mul, Nat.zero_mul]
  | begins rest ih =>
      rw [replace_pattern h.ne_nil, h.occurrences_pattern_append, List.length_append,
        List.length_append, Nat.succ_mul, Nat.succ_mul]
      omega
  | other c rest none ih =>
      rw [replace_cons none, occurrences_cons none, List.length_cons, List.length_cons]
      omega

/-- **A text stays as it is if the placeholder does not stand in it**, or is replaced by itself. -/
theorem IsPlaceholder.replace_eq_self_iff (s : List Char) :
    replace pattern new s = s ↔ new = pattern ∨ occurrences pattern s = 0 := by
  induction s using h.induction with
  | nil => simp [replace, occurrences_nil h.ne_nil]
  | begins rest ih =>
      constructor
      · intro same
        have lengths := h.length_replace new (pattern ++ rest)
        have there := h.occurrences_pattern_append rest
        rw [same, Nat.add_left_cancel_iff, there] at lengths
        rw [replace_pattern h.ne_nil] at same
        exact .inl (List.append_inj_left same (Nat.eq_of_mul_eq_mul_left (Nat.succ_pos _) lengths).symm)
      · rintro (rfl | none)
        · exact h.replace_self _
        · rw [h.occurrences_pattern_append] at none
          exact absurd none (Nat.succ_ne_zero _)
  | other c rest none ih =>
      rw [replace_cons none, occurrences_cons none, List.cons_inj_right, ih]

/-- One of two placeholders stays as it is while the other is replaced. -/
theorem IsPlaceholder.replace_other_append (h' : IsPlaceholder pattern')
    (apart : ¬pattern <+: pattern') (apart' : ¬pattern' <+: pattern) (rest : List Char) :
    replace pattern new (pattern' ++ rest) = pattern' ++ replace pattern new rest := by
  have none : ¬pattern <+: pattern' ++ rest := fun begins =>
    (List.prefix_or_prefix_of_prefix begins ⟨rest, rfl⟩).elim apart apart'
  obtain ⟨name, rfl, closed⟩ := h'
  rw [List.cons_append] at none ⊢
  rw [replace_cons none, h.replace_plain_append closed, List.cons_append]

theorem IsPlaceholder.occurrences_other_append (h' : IsPlaceholder pattern')
    (apart : ¬pattern <+: pattern') (apart' : ¬pattern' <+: pattern) (rest : List Char) :
    occurrences pattern (pattern' ++ rest) = occurrences pattern rest := by
  have none : ¬pattern <+: pattern' ++ rest := fun begins =>
    (List.prefix_or_prefix_of_prefix begins ⟨rest, rfl⟩).elim apart apart'
  obtain ⟨name, rfl, closed⟩ := h'
  rw [List.cons_append] at none ⊢
  rw [occurrences_cons none, h.occurrences_plain_append closed]

end

end TemporalDB.Text
