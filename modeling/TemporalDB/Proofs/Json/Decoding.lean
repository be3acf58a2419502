import TemporalDB.Encoding.Query
import TemporalDB.Proofs.Json.Text

/-!
# Taking apart what was put together

Counts, integers, lists and items that may be missing come back from their forms in JSON, and these
forms are plain. The kind of a variant is found among its fields, and the other fields are left.
-/

namespace TemporalDB.Json

open Text

variable {α : Type} {encode : α → Json} {decode : Json → Option α} {d n bound : Nat}
  {tag kind : String} {kinds : List String} {members parts : List (String × Json)} {xs : List α}
  {o : Option α}

/-! ## Numbers -/

theorem inRange_of_lt (h : n < bound64) : InRange n :=
  ⟨Int.le_trans (by decide) (Int.natCast_nonneg n), Int.ofNat_lt.mpr h⟩

theorem inRange_toInt (n : Int64) : InRange n.toInt :=
  ⟨n.minValue_le_toInt, Int.lt_of_le_of_lt n.toInt_le (by decide)⟩

theorem plain_count (h : n < bound64) : Plain d (count n) := .integer (inRange_of_lt h)

theorem asCount_count (h : n < bound) : asCount bound (count n) = some n := by
  have inside : (decide (0 ≤ (n : Int)) && decide ((n : Int) < bound)) = true := by
    simpa using h
  rw [count, asCount, if_pos inside]
  rfl

theorem asInt64_toInt (n : Int64) : asInt64 (.integer n.toInt) = some n := by
  have inside : (decide (Int64.minValue.toInt ≤ n.toInt) &&
      decide (n.toInt ≤ Int64.maxValue.toInt)) = true := by
    simp only [Bool.and_eq_true, decide_eq_true_eq]
    exact ⟨n.minValue_le_toInt, n.toInt_le⟩
  rw [asInt64, if_pos inside, Int64.ofInt_toInt]

/-! ## Lists and items that may be missing -/

theorem plain_list (h : ∀ x ∈ xs, Plain d (encode x)) : Plain (d + 1) (list encode xs) := by
  refine .array fun j hj => ?_
  obtain ⟨x, hx, rfl⟩ := List.mem_map.mp hj
  exact h x hx

theorem asList_list (h : ∀ x ∈ xs, decode (encode x) = some x) :
    asList decode (list encode xs) = some xs := by
  show (xs.map encode).mapM decode = some xs
  induction xs with
  | nil => rfl
  | cons x xs ih =>
      rw [List.forall_mem_cons] at h
      rw [List.map_cons, List.mapM_cons, h.1, ih h.2]
      rfl

theorem plain_orNull (h : ∀ x ∈ o, Plain d (encode x)) : Plain d (orNull encode o) := by
  cases o with
  | none => exact .null
  | some x => exact h x rfl

/-- An item that may be missing comes back if it does where it is there, and is not nothing then. -/
theorem optional_orNull (h : ∀ x ∈ o, decode (encode x) = some x) (there : ∀ x, encode x ≠ null) :
    optional decode (some (orNull encode o)) = some o := by
  cases o with
  | none => rfl
  | some x =>
      have some := h x rfl
      rw [orNull, Option.elim_some, optional]
      · rw [some]
        rfl
      · exact there x

theorem required_some {j : Json} : required decode (some j) = decode j := by rw [required]

/-! ## Variants -/

theorem tagged_object (denotes : (object members).denotes = true)
    (told : uniqueMember tag members = some (some (string kind)))
    (others : (members.filter fun m => m.1 ≠ tag) = parts) :
    tagged tag kinds (object members) = some (kind, object parts) := by
  rw [tagged, if_neg (by rw [denotes]; exact Bool.false_ne_true)]
  rw [told, others]
  rfl

end TemporalDB.Json
