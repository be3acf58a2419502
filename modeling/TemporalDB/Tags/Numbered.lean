import TemporalDB.Tags

/-!
# Numbered tags

The tag of a tree has the first number whose mark no name of the tree ends in. There is one among as
many numbers as there are names and one more, since a name ends in the mark of one number at most.
-/

namespace TemporalDB.Tags

variable {n m : Nat} {names : List String} {name : String}

/-- The digits of a number, the last one first, with zeros up to a width. What is left of a longer
number is counted out. -/
def digits : Nat → Nat → List Char
  | 0, n => List.replicate n '0'
  | width + 1, n => Nat.digitChar (n % 10) :: digits width (n / 10)

/-- The tag of a number: 36 characters in five groups. -/
def numbered (n : Nat) : String := "00000000-0000-4000-8000-" ++ String.ofList (digits 12 n)

/-- The first number whose mark none of the names ends in. -/
def firstUnused (names : List String) : Nat :=
  ((List.range (names.length + 1)).find? fun n =>
    !names.any fun name => (markOf (numbered n)).toList.isSuffixOf name.toList).getD 0

theorem isDigit_of_mem_digits {width : Nat} {c : Char} (h : c ∈ digits width n) :
    c.isDigit = true := by
  induction width generalizing n with
  | zero =>
      rw [(List.mem_replicate.mp h).2]
      rfl
  | succ width ih =>
      rcases List.mem_cons.mp h with rfl | h
      · have each : ∀ k < 10, (Nat.digitChar k).isDigit = true := by decide
        exact each _ (Nat.mod_lt n (by decide))
      · exact ih h

theorem digits_inj {width : Nat} (h : digits width n = digits width m) : n = m := by
  induction width generalizing n m with
  | zero =>
      have length := congrArg List.length h
      rwa [digits, digits, List.length_replicate, List.length_replicate] at length
  | succ width ih =>
      obtain ⟨last, front⟩ := List.cons.inj h
      have each : ∀ k < 10, ∀ l < 10, Nat.digitChar k = Nat.digitChar l → k = l := by decide
      have last := each _ (Nat.mod_lt n (by decide)) _ (Nat.mod_lt m (by decide)) last
      have front := ih front
      omega

theorem toList_mark : (markOf (numbered n)).toList =
    '.' :: ("00000000-0000-4000-8000-".toList ++ (digits 12 n ++ ".tmp".toList)) := by
  unfold markOf numbered
  rw [String.toList_append, String.toList_append, String.toList_append,
    @String.toList_ofList (digits 12 n), List.append_assoc, List.append_assoc]
  rfl

theorem count_mark : (markOf (numbered n)).toList.count '.' = 2 := by
  have digits : (digits 12 n).count '.' = 0 := by
    rw [List.count_eq_zero]
    intro h
    exact absurd (isDigit_of_mem_digits h) (by decide)
  rw [toList_mark, List.count_cons, List.count_append, List.count_append, digits]
  decide

/-- No mark ends in another: each has one point in front and one before its end. -/
theorem eq_of_mark_suffix
    (h : (markOf (numbered n)).toList <:+ (markOf (numbered m)).toList) : n = m := by
  obtain ⟨front, hfront⟩ := h
  have nothing : front = [] := by
    rcases front with _ | ⟨c, front⟩
    · rfl
    · have points := congrArg (List.count '.') hfront
      rw [List.count_append, count_mark, count_mark] at points
      have first : c = '.' := by
        rw [toList_mark (n := m), List.cons_append] at hfront
        exact (List.cons.inj hfront).1
      rw [first, List.count_cons_self] at points
      omega
  rw [nothing, List.nil_append, toList_mark, toList_mark] at hfront
  have same := List.append_cancel_left (List.cons.inj hfront).2
  exact digits_inj (List.append_cancel_right same)

theorem mark_injective (hn : (markOf (numbered n)).toList <:+ name.toList)
    (hm : (markOf (numbered m)).toList <:+ name.toList) : n = m := by
  rcases List.suffix_or_suffix_of_suffix hn hm with h | h
  · exact eq_of_mark_suffix h
  · exact (eq_of_mark_suffix h).symm

/-- Names do not use up more numbers than there are names. -/
theorem exists_unused {numbers : List Nat} (differ : numbers.Nodup)
    (few : names.length < numbers.length) :
    ∃ n ∈ numbers, ∀ name ∈ names, ¬ (markOf (numbered n)).toList <:+ name.toList := by
  induction names generalizing numbers with
  | nil =>
      obtain ⟨n, hn⟩ := List.exists_mem_of_length_pos few
      exact ⟨n, hn, nofun⟩
  | cons name rest ih =>
      by_cases used : ∃ n ∈ numbers, (markOf (numbered n)).toList <:+ name.toList
      · obtain ⟨n, hn, marked⟩ := used
        have fewer : rest.length < (numbers.erase n).length := by
          rw [List.length_erase_of_mem hn]
          exact Nat.lt_sub_of_add_lt few
        obtain ⟨m, hm, unused⟩ := ih (differ.erase n) fewer
        obtain ⟨other, hm⟩ := differ.mem_erase_iff.mp hm
        refine ⟨m, hm, List.forall_mem_cons.mpr ⟨fun marked' => ?_, unused⟩⟩
        exact other (mark_injective marked' marked)
      · obtain ⟨m, hm, unused⟩ := ih differ (Nat.lt_of_succ_lt few)
        exact ⟨m, hm, List.forall_mem_cons.mpr ⟨fun marked => used ⟨m, hm, marked⟩, unused⟩⟩

theorem any_isSuffixOf_iff : (names.any fun name =>
    (markOf (numbered n)).toList.isSuffixOf name.toList) = true ↔
      ∃ name ∈ names, (markOf (numbered n)).toList <:+ name.toList := by
  simp only [List.any_eq_true, List.isSuffixOf_iff_suffix]

theorem firstUnused_spec (names : List String) :
    (∀ name ∈ names, ¬ (markOf (numbered (firstUnused names))).toList <:+ name.toList) ∧
      ∀ n < firstUnused names, ∃ name ∈ names, (markOf (numbered n)).toList <:+ name.toList := by
  have few : names.length < (List.range (names.length + 1)).length := by
    rw [List.length_range]
    exact Nat.lt_succ_self _
  obtain ⟨k, hk, unused⟩ := exists_unused List.nodup_range few
  have there : ((List.range (names.length + 1)).find? fun n => !names.any fun name =>
      (markOf (numbered n)).toList.isSuffixOf name.toList).isSome := by
    rw [List.find?_isSome]
    refine ⟨k, hk, ?_⟩
    rw [Bool.not_eq_true', Bool.eq_false_iff, Ne, any_isSuffixOf_iff]
    rintro ⟨name, hname, marked⟩
    exact unused name hname marked
  obtain ⟨n, hn⟩ := Option.isSome_iff_exists.mp there
  unfold firstUnused
  rw [hn, Option.getD_some]
  constructor
  · intro name hname marked
    have free := List.find?_some hn
    rw [Bool.not_eq_true', Bool.eq_false_iff, Ne, any_isSuffixOf_iff] at free
    exact free ⟨name, hname, marked⟩
  · intro m hm
    have before := (List.find?_range_eq_some.mp hn).2.2 m hm
    rw [Bool.not_not] at before
    exact any_isSuffixOf_iff.mp before

/-- Names that end in the same marks have the same first unused number. -/
theorem firstUnused_congr {names' : List String}
    (same : ∀ name, ".tmp".toList <:+ name.toList → (name ∈ names ↔ name ∈ names')) :
    firstUnused names = firstUnused names' := by
  have ends : ∀ n, ".tmp".toList <:+ (markOf (numbered n)).toList := fun n => by
    unfold markOf
    rw [String.toList_append]
    exact List.suffix_append _ _
  obtain ⟨unused, first⟩ := firstUnused_spec names
  obtain ⟨unused', first'⟩ := firstUnused_spec names'
  rcases Nat.lt_trichotomy (firstUnused names) (firstUnused names') with less | equal | more
  · obtain ⟨name, hname, marked⟩ := first' _ less
    exact absurd marked (unused name ((same name ((ends _).trans marked)).mpr hname))
  · exact equal
  · obtain ⟨name, hname, marked⟩ := first _ more
    exact absurd marked (unused' name ((same name ((ends _).trans marked)).mp hname))

instance : Tags where
  tag t := numbered (firstUnused t.names)
  plain t c h := by
    unfold numbered at h
    rw [String.toList_append, @String.toList_ofList (digits 12 _), List.mem_append] at h
    rcases h with h | h
    · have each : ("00000000-0000-4000-8000-".toList.all fun c => c.isAlphanum || c == '-') = true :=
        rfl
      have here := List.all_eq_true.mp each c h
      rwa [Bool.or_eq_true, beq_iff_eq] at here
    · refine Or.inl ?_
      unfold Char.isAlphanum
      rw [isDigit_of_mem_digits h, Bool.or_true]
  fresh t := (firstUnused_spec t.names).1
  steady t t' same := by rw [firstUnused_congr same]

end TemporalDB.Tags
