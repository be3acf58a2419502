import Mathlib.Data.String.Basic
import TemporalDB.Proofs.FileTree.Walk

/-!
# Paths above a path

The paths of the directories that lead to a path are those of its first parts. Each of them has the
ones after it above it, and is written with a part of the text of the path.
-/

namespace TemporalDB

open Text

namespace Path

variable {p : Path} {front : List String}

/-- The first parts of a path are those of a path of their own, which begins where the path does. -/
theorem ofParts_front (full : front ≠ []) (first : front <+: p.parts) :
    (ofParts front).parts = front ∧ (ofParts front).isAbsolute = p.isAbsolute ∧
      ∃ root, p.parts = root ++ p.pieces.filter leads ∧
        front = root ++ (ofParts front).pieces.filter leads := by
  have leading : ∀ {named}, named <+: p.pieces.filter leads → named.filter leads = named := by
    intro named h
    refine List.filter_eq_self.mpr fun piece hpiece => ?_
    exact (List.mem_filter.mp (h.subset hpiece)).2
  have plain : ∀ {named}, named <+: p.pieces.filter leads → ∀ piece ∈ named, '/' ∉ piece.toList :=
    fun h piece hpiece => plain_of_mem_filter_pieces piece (h.subset hpiece)
  rcases p.parts_cases with ⟨absolute, parts⟩ | ⟨relative, ⟨-, parts⟩ | parts⟩
  · rw [parts] at first
    obtain ⟨named, rfl, names⟩ := (List.prefix_cons_iff.mp first).resolve_left full
    obtain ⟨root, pieces⟩ := ofParts_root (plain names)
    rw [leading names] at pieces
    refine ⟨?_, root.trans absolute.symm, ["/"], parts, congrArg (["/"] ++ ·) pieces.symm⟩
    unfold Path.parts
    rw [if_pos root]
    exact congrArg _ pieces
  · rw [parts] at first
    obtain ⟨named, rfl, names⟩ := (List.prefix_cons_iff.mp first).resolve_left full
    have plain' : ∀ piece ∈ "." :: named, '/' ∉ piece.toList :=
      List.forall_mem_cons.mpr ⟨by decide, plain names⟩
    obtain ⟨here, pieces⟩ := ofParts_names plain' (by simp)
    rw [List.filter_cons_of_neg (by decide), leading names] at pieces
    refine ⟨?_, here.trans relative.symm, ["."], parts, congrArg (["."] ++ ·) pieces.symm⟩
    have begins : (ofParts ("." :: named)).pieces.head? = some "." := by
      rw [ofParts_of_plain plain', pieces_intercalate plain' full]
      rfl
    unfold Path.parts
    rw [if_neg (by rw [here]; exact Bool.false_ne_true), if_pos begins]
    exact congrArg _ pieces
  · rw [parts] at first
    have names := plain first
    have begins : ∀ piece ∈ front.head?, piece ≠ "" ∧ piece ≠ "." := by
      intro piece head
      have leads := List.filter_eq_self.mp (leading first) piece (List.mem_of_head? head)
      simpa [Path.leads] using leads
    obtain ⟨here, pieces⟩ := ofParts_names names fun piece head => (begins piece head).1
    rw [leading first] at pieces
    refine ⟨?_, here.trans relative.symm, [], parts, pieces.symm⟩
    unfold Path.parts
    rw [if_neg (by rw [here]; exact Bool.false_ne_true), if_neg]
    · exact pieces
    · rw [ofParts_of_plain names, pieces_intercalate names full]
      exact fun here => (begins "." here).2 rfl

theorem leads_front (full : front ≠ []) (first : front <+: p.parts) :
    (ofParts front).pieces.filter leads <+: p.pieces.filter leads := by
  obtain ⟨-, -, root, parts, begins⟩ := ofParts_front full first
  obtain ⟨last, hlast⟩ := first
  refine ⟨last, (List.append_right_inj root).mp ?_⟩
  rw [← List.append_assoc, ← begins, hlast, parts]

/-- Without its last part a path leads on by named pieces in front of its last one. -/
theorem leads_above (full : p.parts.dropLast ≠ []) :
    (ofParts p.parts.dropLast).pieces.filter leads <+: p.named.dropLast.filter leads := by
  have first : p.parts.dropLast <+: p.parts := List.dropLast_prefix _
  obtain ⟨-, -, root, parts, front⟩ := ofParts_front full first
  have before := leads_front full first
  rw [← p.filter_named] at before parts
  refine List.prefix_of_prefix_length_le before ((List.dropLast_prefix p.named).filter _) ?_
  -- the path is left without one part, and its named pieces without at most one that leads on
  have most : (p.named.filter leads).length ≤ (p.named.dropLast.filter leads).length + 1 := by
    rcases List.eq_nil_or_concat p.named with nothing | ⟨most, last, hlast⟩
    · rw [nothing]
      exact Nat.zero_le _
    · rw [hlast, List.concat_eq_append, List.dropLast_concat, List.filter_append,
        List.length_append]
      exact Nat.add_le_add_left (List.length_filter_le _ _) _
  have lengths := congrArg List.length front
  have lengths' := congrArg List.length parts
  have some := List.length_pos_iff.mpr full
  rw [List.length_dropLast, List.length_append] at lengths
  rw [List.length_append] at lengths'
  rw [List.length_dropLast] at some
  omega

/-- Above a path is the path without its last part, and what is above that. -/
theorem above_cases (p : Path) : p.above = [] ∨ p.parts.dropLast ≠ [] ∧
    p.above = ofParts p.parts.dropLast :: (ofParts p.parts.dropLast).above := by
  cases parts : p.parts.dropLast with
  | nil =>
      refine Or.inl ?_
      unfold above
      rw [parts]
      rfl
  | cons part rest =>
      refine Or.inr ⟨List.cons_ne_nil _ _, ?_⟩
      have again := (ofParts_front (List.cons_ne_nil part rest)
        (parts ▸ List.dropLast_prefix p.parts)).1
      unfold above
      rw [again, parts]
      dsimp only
      rw [List.length_dropLast, List.length_cons, Nat.add_sub_cancel, List.range_succ_eq_map,
        List.map_cons, List.map_map]
      refine List.cons_eq_cons.mpr ⟨congrArg ofParts (List.take_of_length_le (by simp)), ?_⟩
      refine List.map_congr_left fun n _ => congrArg ofParts ?_
      rw [List.dropLast_eq_take, List.take_take, List.length_cons, Nat.add_sub_cancel,
        Nat.min_eq_left (Nat.sub_le _ _), Nat.succ_sub_succ]

/-! ## Lengths -/

/-- Of pieces between slashes some are a part of the text that they all make. -/
theorem sublist_intercalate {some all : List String} (h : some.Sublist all) :
    (String.intercalate "/" some).toList.Sublist (String.intercalate "/" all).toList := by
  have front : ∀ piece : String, ∀ rest, (String.intercalate "/" rest).toList.Sublist
      (String.intercalate "/" (piece :: rest)).toList := by
    intro piece rest
    cases rest with
    | nil => simp
    | cons next rest =>
        rw [String.intercalate_cons_cons, String.toList_append]
        exact List.sublist_append_right _ _
  induction h with
  | slnil => exact List.Sublist.refl _
  | cons piece _ ih => exact ih.trans (front piece _)
  | @cons_cons some all piece h ih =>
      cases some with
      | nil =>
          rw [String.intercalate_singleton]
          cases all with
          | nil => rw [String.intercalate_singleton]
          | cons next all =>
              rw [String.intercalate_cons_cons, String.append_assoc, String.toList_append]
              exact List.sublist_append_left _ _
      | cons first some =>
          cases all with
          | nil => cases h
          | cons next all =>
              rw [String.intercalate_cons_cons, String.intercalate_cons_cons,
                String.toList_append (s := piece ++ "/"), String.toList_append (s := piece ++ "/")]
              exact (List.Sublist.refl _).append ih

theorem intercalate_pieces (p : Path) : String.intercalate "/" p.pieces = p.text := by
  unfold pieces
  rw [← String.toList_inj, String.toList_intercalate, List.map_map]
  have same : String.toList ∘ String.ofList = id := funext fun _ => String.toList_ofList
  rw [same, List.map_id]
  exact intercalate_splitAt

/-- The path of the first parts of a path is written with a part of its text. -/
theorem sublist_text_ofParts (full : front ≠ []) (first : front <+: p.parts) :
    (ofParts front).text.toList.Sublist p.text.toList := by
  have relative : (∀ piece ∈ front, '/' ∉ piece.toList) → front.Sublist p.pieces →
      (ofParts front).text.toList.Sublist p.text.toList := by
    intro plain sub
    rw [ofParts_of_plain plain, ← intercalate_pieces p]
    exact sublist_intercalate sub
  rcases p.parts_cases with ⟨absolute, parts⟩ | ⟨-, ⟨here, parts⟩ | parts⟩
  · rw [parts] at first
    obtain ⟨named, rfl, names⟩ := (List.prefix_cons_iff.mp first).resolve_left full
    -- the slash in front makes one more piece, which is empty
    obtain ⟨tail, htail⟩ : ∃ tail, p.text.toList = '/' :: tail := by
      simpa [isAbsolute, List.head?_eq_some_iff] using absolute
    obtain ⟨text⟩ := p
    have text_eq : text = "" ++ "/" ++ String.ofList tail := by
      rw [← String.toList_inj, htail]
      simp
    subst text_eq
    rw [pieces_append_slash, List.filter_append] at names
    have sub := sublist_intercalate (names.sublist.trans List.filter_sublist)
    rw [intercalate_pieces] at sub
    rw [htail]
    have begun : (ofParts ("/" :: named)).text.toList =
        '/' :: (String.intercalate "/" named).toList :=
      String.toList_append (s := "/")
    rw [begun]
    simpa using sub
  · rw [parts] at first
    obtain ⟨rest, hrest⟩ := List.head?_eq_some_iff.mp here
    have plain : ∀ piece ∈ "." :: p.pieces.filter leads, '/' ∉ piece.toList :=
      List.forall_mem_cons.mpr ⟨by decide, plain_of_mem_filter_pieces⟩
    refine relative (fun piece h => plain piece (first.subset h)) (first.sublist.trans ?_)
    rw [hrest, List.filter_cons_of_neg (by decide)]
    exact List.filter_sublist.cons_cons "."
  · rw [parts] at first
    exact relative (fun piece h => plain_of_mem_filter_pieces piece (first.subset h))
      (first.sublist.trans List.filter_sublist)

/-- A file can have the paths above a path that it can have. -/
theorem Legal.ofParts (legal : p.Legal) (full : front ≠ []) (first : front <+: p.parts) :
    (Path.ofParts front).Legal := by
  have sub := sublist_text_ofParts full first
  refine ⟨fun empty => full ?_, fun zero => legal.unbroken (sub.subset zero), ?_⟩
  · rw [← (ofParts_front full first).1, show Path.ofParts front = ⟨""⟩ from congrArg Path.mk empty]
    rfl
  · have size := String.utf8Len_le_of_sublist sub
    rw [← String.utf8ByteSize_ofList, ← String.utf8ByteSize_ofList, String.ofList_toList,
      String.ofList_toList] at size
    exact Nat.lt_of_le_of_lt size legal.short

end Path

end TemporalDB
