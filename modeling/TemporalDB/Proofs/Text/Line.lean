import Mathlib.Data.List.Induction
import Mathlib.Data.List.TakeWhile
import TemporalDB.Text.Blank

/-!
# Pieces and lines of a text

A separator that does not occur in a piece ends it, so a text of lines is taken apart into the lines
it was made of, as long as no line holds a line feed or ends in a carriage return. Trimming leaves a
text alone that begins and ends with something else than a blank.
-/

namespace TemporalDB.Text

variable {sep c d : Char} {piece rest s t : List Char}

/-! ## Pieces -/

theorem splitAt_ne_nil : splitAt sep s ≠ [] := by
  induction s with
  | nil => exact List.cons_ne_nil _ _
  | cons c rest ih =>
      unfold splitAt
      split
      · exact List.cons_ne_nil _ _
      · split <;> exact List.cons_ne_nil _ _

/-- A text in which the separator does not occur is one piece. -/
theorem splitAt_eq_self (h : sep ∉ piece) : splitAt sep piece = [piece] := by
  induction piece with
  | nil => rfl
  | cons c piece ih =>
      rw [List.mem_cons, not_or] at h
      rw [splitAt, if_neg (Ne.symm h.1), ih h.2]

theorem not_mem_of_mem_splitAt : ∀ piece ∈ splitAt sep s, sep ∉ piece := by
  induction s with
  | nil => exact List.forall_mem_singleton.mpr List.not_mem_nil
  | cons c s ih =>
      rw [splitAt]
      split
      · exact List.forall_mem_cons.mpr ⟨List.not_mem_nil, ih⟩
      · next other =>
          obtain ⟨front, others, hs⟩ := List.exists_cons_of_ne_nil (splitAt_ne_nil (s := s))
          rw [hs] at ih ⊢
          obtain ⟨hfront, hothers⟩ := List.forall_mem_cons.mp ih
          refine List.forall_mem_cons.mpr ⟨?_, hothers⟩
          rw [List.mem_cons, not_or]
          exact ⟨Ne.symm other, hfront⟩

theorem length_splitAt_le : (splitAt sep s).length ≤ s.length + 1 := by
  induction s with
  | nil => exact Nat.le_refl 1
  | cons c s ih =>
      rw [splitAt]
      split
      · exact Nat.succ_le_succ ih
      · obtain ⟨front, others, hs⟩ := List.exists_cons_of_ne_nil (splitAt_ne_nil (s := s))
        rw [hs] at ih ⊢
        exact Nat.le_succ_of_le ih

/-- A separator stands between the pieces before it and those after it. -/
theorem splitAt_append : splitAt sep (s ++ sep :: rest) = splitAt sep s ++ splitAt sep rest := by
  induction s with
  | nil =>
      rw [List.nil_append, splitAt.eq_2, if_pos rfl]
      rfl
  | cons c s ih =>
      rw [List.cons_append, splitAt, splitAt, ih]
      split
      · rfl
      · obtain ⟨front, others, hs⟩ := List.exists_cons_of_ne_nil (splitAt_ne_nil (s := s))
        rw [hs, List.cons_append]
        rfl

theorem splitAt_append_cons (h : sep ∉ piece) :
    splitAt sep (piece ++ sep :: rest) = piece :: splitAt sep rest := by
  rw [splitAt_append, splitAt_eq_self h, List.singleton_append]

/-- Pieces without the separator are what the text with the separator between them is taken apart
into. -/
theorem splitAt_intercalate {pieces : List (List Char)} (some : pieces ≠ [])
    (h : ∀ piece ∈ pieces, sep ∉ piece) : splitAt sep ([sep].intercalate pieces) = pieces := by
  induction pieces with
  | nil => exact absurd rfl some
  | cons piece others ih =>
      obtain ⟨here, later⟩ := List.forall_mem_cons.mp h
      cases others with
      | nil => rw [List.intercalate_singleton, splitAt_eq_self here]
      | cons next others =>
          rw [List.intercalate_cons_cons, List.append_assoc, List.singleton_append,
            splitAt_append_cons here, ih (List.cons_ne_nil _ _) later]

theorem intercalate_splitAt : [sep].intercalate (splitAt sep s) = s := by
  induction s with
  | nil => rfl
  | cons c s ih =>
      obtain ⟨front, others, hs⟩ := List.exists_cons_of_ne_nil (splitAt_ne_nil (s := s))
      rw [splitAt]
      rw [hs] at ih ⊢
      split
      · next same =>
          rw [List.intercalate_cons_cons, ih, same]
          rfl
      · -- without a separator behind it the front is the whole rest of the text
        cases others with
        | nil =>
            rw [List.intercalate_singleton] at ih ⊢
            rw [ih]
        | cons next others =>
            rw [List.intercalate_cons_cons] at ih ⊢
            rw [← ih]
            rfl

/-- The last piece has a separator in front of it, unless it is the only one. -/
theorem intercalate_append_singleton {pieces : List (List Char)} (some : pieces ≠ []) :
    [sep].intercalate (pieces ++ [piece]) = [sep].intercalate pieces ++ sep :: piece := by
  induction pieces with
  | nil => exact absurd rfl some
  | cons first others ih =>
      cases others with
      | nil =>
          rw [List.intercalate_singleton, List.singleton_append, List.intercalate_cons_cons,
            List.intercalate_singleton, List.append_assoc, List.singleton_append]
      | cons next others =>
          have later := ih (List.cons_ne_nil _ _)
          rw [List.cons_append] at later
          rw [List.cons_append, List.cons_append, List.intercalate_cons_cons, later,
            List.intercalate_cons_cons, List.append_assoc, List.append_assoc, List.append_assoc]

theorem splitOnce_eq_none (h : sep ∉ piece) : splitOnce sep piece = none := by
  induction piece with
  | nil => rfl
  | cons c piece ih =>
      rw [List.mem_cons, not_or] at h
      rw [splitOnce, if_neg (Ne.symm h.1), ih h.2]
      rfl

theorem splitOnce_append_cons (h : sep ∉ piece) :
    splitOnce sep (piece ++ sep :: rest) = some (piece, rest) := by
  induction piece with
  | nil => rw [List.nil_append, splitOnce, if_pos rfl]
  | cons c piece ih =>
      rw [List.mem_cons, not_or] at h
      rw [List.cons_append, splitOnce, if_neg (Ne.symm h.1), ih h.2]
      rfl

/-- What is taken apart at a separator has it between the parts. -/
theorem eq_of_splitOnce (h : splitOnce sep s = some (piece, rest)) : s = piece ++ sep :: rest := by
  induction s generalizing piece with
  | nil => cases h
  | cons c s ih =>
      rw [splitOnce] at h
      split at h
      · next same =>
          cases h
          rw [same, List.nil_append]
      · obtain ⟨⟨before, after⟩, hs, h⟩ := Option.map_eq_some_iff.mp h
        cases h
        rw [ih hs, List.cons_append]

/-! ## Lines -/

theorem length_linesOfPieces_le {pieces : List (List Char)} :
    (linesOfPieces pieces).length ≤ pieces.length := by
  induction pieces with
  | nil => exact Nat.le_refl 0
  | cons piece pieces ih =>
      cases pieces with
      | nil =>
          rw [linesOfPieces]
          split
          · exact Nat.zero_le 1
          · exact Nat.le_refl 1
      | cons next pieces => exact Nat.succ_le_succ ih

theorem length_lines_le : (lines s).length ≤ s.length + 1 :=
  Nat.le_trans length_linesOfPieces_le length_splitAt_le

theorem dropReturn_eq_self (h : piece.getLast? ≠ some '\r') : dropReturn piece = piece := by
  unfold dropReturn
  split
  · next rest hr =>
      exact absurd (by rw [← List.head?_reverse, hr, List.head?_cons]) h
  · rfl

/-- **A line feed ends a line.** -/
theorem lines_append_cons (h : '\n' ∉ piece) :
    lines (piece ++ '\n' :: rest) = dropReturn piece :: lines rest := by
  unfold lines
  rw [splitAt_append_cons h]
  obtain ⟨first, others, hs⟩ := List.exists_cons_of_ne_nil (@splitAt_ne_nil '\n' rest)
  rw [hs, linesOfPieces]
  exact List.cons_ne_nil _ _

/-! ## Trimming -/

theorem skipBlanks_cons (h : isBlank c = false) : skipBlanks (c :: rest) = c :: rest :=
  List.dropWhile_cons_of_neg (by rw [h]; exact Bool.false_ne_true)

theorem dropTrailingBlanks_append_singleton (h : isBlank d = false) :
    dropTrailingBlanks (s ++ [d]) = s ++ [d] := by
  unfold dropTrailingBlanks
  rw [List.reverse_append, List.reverse_singleton, List.singleton_append,
    List.dropWhile_cons_of_neg (by rw [h]; exact Bool.false_ne_true), List.reverse_cons,
    List.reverse_reverse]

theorem dropTrailingBlanks_append_blank (h : isBlank d = true) :
    dropTrailingBlanks (s ++ [d]) = dropTrailingBlanks s := by
  unfold dropTrailingBlanks
  rw [List.reverse_append, List.reverse_singleton, List.singleton_append,
    List.dropWhile_cons_of_pos h]

theorem exists_dropTrailingBlanks_cons (h : isBlank c = false) :
    ∃ kept, dropTrailingBlanks (c :: s) = c :: kept := by
  induction s using List.reverseRecOn with
  | nil => exact ⟨[], dropTrailingBlanks_append_singleton h (s := [])⟩
  | append_singleton s d ih =>
      rw [← List.cons_append]
      cases hd : isBlank d with
      | false => exact ⟨s ++ [d], dropTrailingBlanks_append_singleton hd⟩
      | true =>
          rw [dropTrailingBlanks_append_blank hd]
          exact ih

theorem trim_eq_nil_iff : trim s = [] ↔ ∀ c ∈ s, isBlank c = true := by
  unfold trim dropTrailingBlanks skipBlanks
  rw [List.reverse_eq_nil_iff, List.dropWhile_eq_nil_iff]
  constructor
  · intro blank c hc
    rw [← List.takeWhile_append_dropWhile (p := isBlank) (l := s)] at hc
    rcases List.mem_append.mp hc with front | back
    · exact List.mem_takeWhile_imp front
    · exact blank c (List.mem_reverse.mpr back)
  · intro blank c hc
    exact blank c ((List.dropWhile_sublist _).subset (List.mem_reverse.mp hc))

/-- A text with something else than a blank at either end is left alone. -/
theorem trim_eq_self (head : ∀ c ∈ s.head?, isBlank c = false)
    (last : ∀ c ∈ s.getLast?, isBlank c = false) : trim s = s := by
  cases hs : s with
  | nil => rfl
  | cons c rest =>
      have hc : isBlank c = false := head c (by rw [hs]; rfl)
      rw [trim, skipBlanks_cons hc, ← hs]
      obtain ⟨front, d, hd⟩ := List.eq_nil_or_concat s |>.resolve_left (by rw [hs]; simp)
      rw [List.concat_eq_append] at hd
      rw [hd]
      exact dropTrailingBlanks_append_singleton (last d (by rw [hd]; simp))

theorem trim_eq_self_of_forall (h : ∀ c ∈ s, isBlank c = false) : trim s = s :=
  trim_eq_self (fun c hc => h c (List.mem_of_mem_head? hc))
    fun c hc => h c (List.mem_of_mem_getLast? hc)

theorem trim_append_blank (h : isBlank d = true) (hs : s ≠ [])
    (head : ∀ c ∈ s.head?, isBlank c = false) : trim (s ++ [d]) = trim s := by
  obtain ⟨c, rest, rfl⟩ := List.exists_cons_of_ne_nil hs
  have hc : isBlank c = false := head c rfl
  rw [trim, trim, List.cons_append, skipBlanks_cons hc, skipBlanks_cons hc, ← List.cons_append,
    dropTrailingBlanks_append_blank h]

end TemporalDB.Text
