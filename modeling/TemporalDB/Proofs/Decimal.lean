import Mathlib.Data.List.Induction
import TemporalDB.Proofs.Text.Line
import TemporalDB.Proofs.Text.Number
import TemporalDB.Value

/-!
# Decimals, written and read

A decimal that was read for a precision has no more digits than this, and it is read back from its
text, which shows all the digits of its scale.
-/

namespace TemporalDB.Decimal

open Text

variable {precision scale : UInt8} {raw : Int64} {s whole fraction unsigned : List Char}
  {negative : Bool} {n : Nat}

/-- Whether a decimal has no more digits than a precision. -/
def Fits (precision : UInt8) (raw : Int64) : Prop := raw.toInt.natAbs < 10 ^ precision.toNat

/-- Precisions that can be stored are those whose decimals are integers of 64 bits. -/
theorem le_maxValue {n : Nat} (le : precision ≤ maxPrecision) (h : n < 10 ^ precision.toNat) :
    (n : Int) ≤ Int64.maxValue.toInt := by
  have power : 10 ^ precision.toNat ≤ 10 ^ 18 := Nat.pow_le_pow_right (by decide) le
  have small : (n : Int) < (10 ^ 18 : Nat) := by exact_mod_cast Nat.lt_of_lt_of_le h power
  exact Int.le_of_lt (Int.lt_trans small (by decide))

/-! ## What is read -/

def digitsOf (scale : UInt8) (whole fraction : List Char) : List Char :=
  whole.dropWhile (· = '0') ++ (fraction ++ List.replicate (scale.toNat - fraction.length) '0')

theorem isDigit_of_mem_digitsOf (hw : ∀ c ∈ whole, c.isDigit = true)
    (hf : ∀ c ∈ fraction, c.isDigit = true) :
    ∀ c ∈ digitsOf scale whole fraction, c.isDigit = true := by
  intro c hc
  rcases List.mem_append.mp hc with h | h
  · exact hw c ((List.dropWhile_sublist _).subset h)
  rcases List.mem_append.mp h with h | h
  · exact hf c h
  · rw [(List.mem_replicate.mp h).2]
    rfl

def signed (negative : Bool) (magnitude : Nat) : Int :=
  if negative then -(magnitude : Int) else magnitude

theorem natAbs_signed (negative : Bool) (magnitude : Nat) :
    (signed negative magnitude).natAbs = magnitude := by
  cases negative with
  | true => exact Int.natAbs_neg _
  | false => rfl

theorem toInt_ofInt_signed {magnitude : Nat} (h : (magnitude : Int) ≤ Int64.maxValue.toInt) :
    (Int64.ofInt (signed negative magnitude)).toInt = signed negative magnitude := by
  have limit : Int64.maxValue.toInt = 2 ^ 63 - 1 := by decide
  have size := natAbs_signed negative magnitude
  rw [Int64.toInt_ofInt_of_le (by omega) (by omega)]

/-- A digit goes to the end of a number as long as the number stays in 64 bits. -/
theorem pushDigit_eq {d : Char} (h : raw.toInt = n) :
    pushDigit raw d = int64? ((n * 10 + digitValue d : Nat) : Int) := by
  unfold pushDigit
  rw [h]
  cases tens : int64? ((n : Int) * 10) with
  | none =>
      -- what is too large before the sum is too large after it
      have tens : int64? ((n * 10 : Nat) : Int) = none := tens
      rw [int64?_natCast] at tens
      rw [int64?_natCast, if_pos]
      · rfl
      · split_ifs at tens with large
        push_cast at large ⊢
        omega
  | some t =>
      rw [Option.bind_eq_bind, Option.bind_some, toInt_of_int64? tens]
      push_cast
      rfl

/-- **Digits make up their number**, taken one by one, as long as it stays in 64 bits. -/
theorem foldlM_pushDigit (ds : List Char) : ds.foldlM pushDigit 0 = int64? (digitsValue ds) := by
  induction ds using List.reverseRecOn with
  | nil => rfl
  | append_singleton ds d ih =>
      have value : digitsValue (ds ++ [d]) = digitsValue ds * 10 + digitValue d := by
        rw [digitsValue_append]
        simp [digitsValue]
      rw [List.foldlM_append, ih, value]
      cases before : int64? (digitsValue ds : Int) with
      | none =>
          -- a number that is out of range stays so with one more digit
          rw [int64?_natCast] at before ⊢
          rw [if_pos]
          · rfl
          · split_ifs at before with large
            push_cast
            omega
      | some raw =>
          rw [← pushDigit_eq (toInt_of_int64? before)]
          show List.foldlM pushDigit raw [d] = _
          simp

/-- A decimal is read from its sign and its digits, if they fit the precision and the scale. -/
theorem read_of_parts (sign : splitSign s = (negative, unsigned))
    (parts : (splitOnce '.' unsigned).getD (unsigned, []) = (whole, fraction)) :
    read precision scale s =
      if whole.isEmpty && fraction.isEmpty then none
      else if !(whole.all Char.isDigit && fraction.all Char.isDigit) then none
      else if precision.toNat - scale.toNat < (whole.dropWhile (· = '0')).length ||
          scale.toNat < fraction.length then none
      else if Int64.maxValue.toInt < digitsValue (digitsOf scale whole fraction) then none
      else some (Int64.ofInt (signed negative (digitsValue (digitsOf scale whole fraction)))) := by
  have loop : ((digitsOf scale whole fraction).foldlM pushDigit 0).bind
      (fun magnitude => some (if negative then -magnitude else magnitude)) =
      if Int64.maxValue.toInt < digitsValue (digitsOf scale whole fraction) then none
      else some (Int64.ofInt (signed negative (digitsValue (digitsOf scale whole fraction)))) := by
    rw [foldlM_pushDigit, int64?_natCast]
    split
    · rfl
    · cases negative with
      | true => exact congrArg some (Int64.ofInt_neg _).symm
      | false => rfl
  unfold read
  rw [sign]
  dsimp only
  rw [parts, ← loop]
  rfl

/-- The scale's digits come after the point and the others of the precision before it, so there are
no more than the precision says. -/
theorem digitsValue_digitsOf_lt (le : scale.toNat ≤ precision.toNat)
    (hw : ∀ c ∈ whole, c.isDigit = true) (hf : ∀ c ∈ fraction, c.isDigit = true)
    (before : (whole.dropWhile (· = '0')).length ≤ precision.toNat - scale.toNat)
    (after : fraction.length ≤ scale.toNat) :
    digitsValue (digitsOf scale whole fraction) < 10 ^ precision.toNat := by
  have few : (digitsOf scale whole fraction).length ≤ precision.toNat := by
    simp only [digitsOf, List.length_append, List.length_replicate]
    omega
  exact Nat.lt_of_lt_of_le (digitsValue_lt (isDigit_of_mem_digitsOf hw hf))
    (Nat.pow_le_pow_right (by decide) few)

/-- **A decimal that was read fits its precision.** -/
theorem fits_of_read (le : scale.toNat ≤ precision.toNat) (bound : precision ≤ maxPrecision)
    (h : read precision scale s = some raw) : Fits precision raw := by
  rcases hp : (splitOnce '.' (splitSign s).2).getD ((splitSign s).2, []) with ⟨whole, fraction⟩
  rw [read_of_parts rfl hp] at h
  split_ifs at h with empty digits long large
  simp only [Bool.not_eq_true', Bool.not_eq_false, Bool.and_eq_true, List.all_eq_true] at digits
  simp only [Bool.or_eq_true, decide_eq_true_eq, not_or, Nat.not_lt] at long
  have small := digitsValue_digitsOf_lt le digits.1 digits.2 long.1 long.2
  unfold Fits
  rw [← Option.some.inj h, toInt_ofInt_signed (le_maxValue bound small), natAbs_signed]
  exact small

/-! ## What is written -/

theorem isDigit_of_mem_head {n : Nat} {c : Char} {rest : List Char}
    (h : Nat.toDigits 10 n ++ s = c :: rest) : c.isDigit = true := by
  obtain ⟨d, ds, hd⟩ := List.exists_cons_of_ne_nil (Nat.toDigits_ne_nil (b := 10) (n := n))
  rw [hd, List.cons_append] at h
  injection h with same
  rw [← same]
  exact isDigit_of_mem_toDigits (by rw [hd]; exact List.mem_cons_self)

/-- A number has a minus sign in front of its digits or none. -/
theorem splitSign_toDigits (negative : Bool) (n : Nat) :
    splitSign ((if negative then ['-'] else []) ++ (Nat.toDigits 10 n ++ s)) =
      (negative, Nat.toDigits 10 n ++ s) := by
  cases negative with
  | true => rfl
  | false =>
      show splitSign (Nat.toDigits 10 n ++ s) = _
      unfold splitSign
      split
      · next hs => exact absurd (isDigit_of_mem_head hs) (by decide)
      · next hs => exact absurd (isDigit_of_mem_head hs) (by decide)
      · rfl

def places (scale : UInt8) (magnitude : Nat) : List Char :=
  if scale = 0 then [] else zeroPadded scale.toNat (magnitude % 10 ^ scale.toNat)

theorem isDigit_of_mem_places : ∀ c ∈ places scale n, c.isDigit = true := by
  unfold places
  split_ifs
  · exact List.forall_mem_nil _
  · exact fun c hc => isDigit_of_mem_zeroPadded hc

/-- There are as many digits after the point as the scale says. -/
theorem length_places : (places scale n).length = scale.toNat := by
  unfold places
  split_ifs with zero
  · rw [zero]
    rfl
  · have pos : 0 < scale.toNat := by
      rw [Nat.pos_iff_ne_zero]
      exact fun h => zero (UInt8.toNat_inj.mp h)
    exact length_zeroPadded pos (Nat.mod_lt _ (Nat.pow_pos (by decide)))

theorem digitsValue_places : digitsValue (places scale n) = n % 10 ^ scale.toNat := by
  unfold places
  split_ifs with zero
  · rw [zero]
    exact (Nat.mod_one n).symm
  · exact digitsValue_zeroPadded _

/-- The text of a decimal is its sign, its digits before the point and those after it. -/
theorem toList_text : (text raw scale).toList =
    (if decide (raw.toInt < 0) then ['-'] else []) ++
      (Nat.toDigits 10 (raw.toInt.natAbs / 10 ^ scale.toNat) ++
        if scale = 0 then [] else '.' :: places scale raw.toInt.natAbs) := by
  have below : raw < 0 ↔ raw.toInt < 0 := Int64.lt_iff_toInt_lt
  unfold text places
  by_cases zero : scale = 0
  · rw [if_pos zero, if_pos zero, toList_showInt, zero]
    simp
  · simp only [zero, if_false, String.toList_ofList, below, decide_eq_true_eq, List.append_assoc]
    rfl

theorem splitOnce_places {whole : Nat} {after : List Char}
    (h : after = if scale = 0 then [] else '.' :: places scale n) :
    (splitOnce '.' (Nat.toDigits 10 whole ++ after)).getD (Nat.toDigits 10 whole ++ after, []) =
      (Nat.toDigits 10 whole, places scale n) := by
  have plain : '.' ∉ Nat.toDigits 10 whole := fun h =>
    absurd (isDigit_of_mem_toDigits h) (by decide)
  rw [h]
  unfold places
  split_ifs
  · rw [List.append_nil, splitOnce_eq_none plain]
    rfl
  · rw [splitOnce_append_cons plain]
    rfl

/-- The digits before and after the point are those of the whole. -/
theorem digitsValue_digitsOf :
    digitsValue (digitsOf scale (Nat.toDigits 10 (n / 10 ^ scale.toNat)) (places scale n)) = n := by
  rw [digitsOf, length_places, Nat.sub_self, List.replicate_zero, List.append_nil,
    digitsValue_append, digitsValue_dropWhile, digitsValue_toDigits, length_places,
    digitsValue_places]
  exact Nat.div_add_mod' _ _

/-- **A decimal is read back from its text**, if it fits its precision. -/
theorem read_text (le : scale.toNat ≤ precision.toNat) (bound : precision ≤ maxPrecision)
    (fits : Fits precision raw) : read precision scale (text raw scale).toList = some raw := by
  have top := le_maxValue bound fits
  have digits : ∀ c ∈ Nat.toDigits 10 (raw.toInt.natAbs / 10 ^ scale.toNat), c.isDigit = true :=
    fun c hc => isDigit_of_mem_toDigits hc
  have few : ((Nat.toDigits 10 (raw.toInt.natAbs / 10 ^ scale.toNat)).dropWhile
      (· = '0')).length ≤ precision.toNat - scale.toNat := by
    apply length_dropWhile_le digits
    rw [digitsValue_toDigits, Nat.div_lt_iff_lt_mul (Nat.pow_pos (by decide)), ← Nat.pow_add,
      Nat.sub_add_cancel le]
    exact fits
  have full : (Nat.toDigits 10 (raw.toInt.natAbs / 10 ^ scale.toNat)).isEmpty = false :=
    List.isEmpty_eq_false_iff.mpr Nat.toDigits_ne_nil
  have value : Int64.ofInt (signed (decide (raw.toInt < 0)) raw.toInt.natAbs) = raw := by
    have same : signed (decide (raw.toInt < 0)) raw.toInt.natAbs = raw.toInt := by
      unfold signed
      simp only [decide_eq_true_eq]
      split_ifs <;> omega
    rw [same, Int64.ofInt_toInt]
  rw [toList_text, read_of_parts (splitSign_toDigits _ _) (splitOnce_places rfl), full,
    List.all_eq_true.mpr digits, List.all_eq_true.mpr isDigit_of_mem_places,
    digitsValue_digitsOf, length_places, value, if_neg (by simp), if_neg (by simp),
    if_neg (by simpa using few), if_neg (Int.not_lt.mpr top)]

theorem trim_text : trim (text raw scale).toList = (text raw scale).toList := by
  have digit : ∀ ds : List Char, (∀ c ∈ ds, c.isDigit = true) → ∀ c ∈ ds, isBlank c = false :=
    fun ds h c hc => isBlank_eq_false_of_isDigit (h c hc)
  apply trim_eq_self_of_forall
  rw [toList_text]
  simp only [List.forall_mem_append]
  refine ⟨?_, digit _ fun c hc => isDigit_of_mem_toDigits hc, ?_⟩
  · split_ifs
    · exact List.forall_mem_singleton.mpr (by decide)
    · exact List.forall_mem_nil _
  · split_ifs
    · exact List.forall_mem_nil _
    · exact List.forall_mem_cons.mpr ⟨by decide, digit _ isDigit_of_mem_places⟩

end TemporalDB.Decimal
