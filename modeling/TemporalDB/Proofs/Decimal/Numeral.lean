import Mathlib.Data.Rat.Defs
import Mathlib.Tactic.FieldSimp
import TemporalDB.Proofs.Value

/-!
# What decimals denote

A numeral denotes a rational number. A decimal type reads the numerals with no more digits than it
has, and what it reads of one is just what the numeral denotes in units of the last place; no step on
the way leaves the 64 bits. What is shown of a decimal, of whatever scale, is a numeral that denotes
it.
-/

namespace TemporalDB

open Text

/-- A decimal numeral: its sign, and its digits before the point and after it. -/
structure Numeral where
  negative : Bool
  whole : List Char
  fraction : List Char

namespace Numeral

variable {n : Numeral} {s unsigned : List Char} {precision scale : UInt8}

def value (n : Numeral) : ℚ :=
  (if n.negative then -1 else 1) *
    (digitsValue n.whole + digitsValue n.fraction / 10 ^ n.fraction.length)

/-- The sign of a numeral. Only a negative one needs one. -/
inductive IsSign : Bool → List Char → Prop
  | minus : IsSign true ['-']
  | plus : IsSign false ['+']
  | absent : IsSign false []

/-- The text is the numeral: its sign, and then ASCII digits, at least one, with at most one point
among them. -/
structure Spells (n : Numeral) (s : List Char) : Prop where
  text : ∃ sign point, IsSign n.negative sign ∧ (point = ['.'] ∨ point = [] ∧ n.fraction = []) ∧
    s = sign ++ (n.whole ++ (point ++ n.fraction))
  whole : ∀ c ∈ n.whole, c.isDigit = true
  fraction : ∀ c ∈ n.fraction, c.isDigit = true
  nonempty : n.whole ++ n.fraction ≠ []

/-- A decimal type takes as many digits after the point as its scale says, and before it as many as
are left of the precision, zeros in front not counted. -/
structure Within (n : Numeral) (precision scale : UInt8) : Prop where
  whole : (n.whole.dropWhile (· = '0')).length ≤ precision.toNat - scale.toNat
  fraction : n.fraction.length ≤ scale.toNat

/-! ## The parts of a numeral -/

theorem exists_sign (s : List Char) :
    ∃ sign, IsSign (Decimal.splitSign s).1 sign ∧ s = sign ++ (Decimal.splitSign s).2 := by
  unfold Decimal.splitSign
  split
  · exact ⟨['-'], .minus, rfl⟩
  · exact ⟨['+'], .plus, rfl⟩
  · exact ⟨[], .absent, rfl⟩

/-- A sign is told from what comes after it, which begins with a digit or a point. -/
theorem splitSign_append {negative : Bool} {sign : List Char} (h : IsSign negative sign)
    (plain : ∀ c ∈ unsigned.head?, c ≠ '-' ∧ c ≠ '+') :
    Decimal.splitSign (sign ++ unsigned) = (negative, unsigned) := by
  cases h with
  | minus => rfl
  | plus => rfl
  | absent =>
      rw [List.nil_append]
      unfold Decimal.splitSign
      split
      · exact absurd rfl (plain '-' rfl).1
      · exact absurd rfl (plain '+' rfl).2
      · rfl

/-- The digits of a numeral are those on the two sides of its point. -/
theorem parts_of_point {point : List Char} (digits : ∀ c ∈ n.whole, c.isDigit = true)
    (h : point = ['.'] ∨ point = [] ∧ n.fraction = []) :
    (splitOnce '.' (n.whole ++ (point ++ n.fraction))).getD
      (n.whole ++ (point ++ n.fraction), []) = (n.whole, n.fraction) := by
  have plain : '.' ∉ n.whole := fun there => absurd (digits _ there) (by decide)
  rcases h with rfl | ⟨rfl, none⟩
  · rw [List.singleton_append, splitOnce_append_cons plain]
    rfl
  · rw [none, List.append_nil, List.append_nil, splitOnce_eq_none plain]
    rfl

/-- **A numeral is told from its text.** -/
theorem Spells.parts (h : n.Spells s) : ∃ unsigned, Decimal.splitSign s = (n.negative, unsigned) ∧
    (splitOnce '.' unsigned).getD (unsigned, []) = (n.whole, n.fraction) := by
  obtain ⟨sign, point, hsign, hpoint, rfl⟩ := h.text
  refine ⟨_, splitSign_append hsign ?_, parts_of_point h.whole hpoint⟩
  intro c hc
  have first : c.isDigit = true ∨ c = '.' := by
    have mem := List.mem_of_mem_head? hc
    simp only [List.mem_append] at mem
    rcases mem with mem | mem | mem
    · exact .inl (h.whole c mem)
    · rcases hpoint with rfl | ⟨rfl, -⟩
      · exact .inr (List.mem_singleton.mp mem)
      · exact absurd mem List.not_mem_nil
    · exact .inl (h.fraction c mem)
  constructor <;>
  · rintro rfl
    exact absurd first (by decide)

/-- What stands on the two sides of a point in a text makes a numeral of it. -/
theorem spells_of_parts {whole fraction : List Char}
    (parts : (splitOnce '.' (Decimal.splitSign s).2).getD ((Decimal.splitSign s).2, []) =
      (whole, fraction))
    (hw : ∀ c ∈ whole, c.isDigit = true) (hf : ∀ c ∈ fraction, c.isDigit = true)
    (nonempty : whole ++ fraction ≠ []) :
    Spells ⟨(Decimal.splitSign s).1, whole, fraction⟩ s := by
  obtain ⟨sign, hsign, hs⟩ := exists_sign s
  refine ⟨?_, hw, hf, nonempty⟩
  cases split : splitOnce '.' (Decimal.splitSign s).2 with
  | none =>
      rw [split] at parts
      cases parts
      exact ⟨sign, [], hsign, .inr ⟨rfl, rfl⟩, by simpa using hs⟩
  | some sides =>
      rw [split] at parts
      obtain rfl : sides = (whole, fraction) := parts
      refine ⟨sign, ['.'], hsign, .inl rfl, ?_⟩
      rw [List.singleton_append, ← eq_of_splitOnce split]
      exact hs

/-! ## What a numeral denotes -/

/-- The digits of a numeral, those of the scale that it does not show included, make up what it
denotes in units of the last place. -/
theorem value_mul (h : n.fraction.length ≤ scale.toNat) : n.value * 10 ^ scale.toNat =
    Decimal.signed n.negative (digitsValue (Decimal.digitsOf scale n.whole n.fraction)) := by
  obtain ⟨missing, hm⟩ := Nat.exists_eq_add_of_le h
  have digits : digitsValue (Decimal.digitsOf scale n.whole n.fraction) =
      digitsValue n.whole * 10 ^ (n.fraction.length + missing) +
        digitsValue n.fraction * 10 ^ missing := by
    rw [Decimal.digitsOf, hm, Nat.add_sub_cancel_left, digitsValue_append, digitsValue_append,
      digitsValue_dropWhile, digitsValue_replicate_zero, List.length_append,
      List.length_replicate, Nat.add_zero]
  have magnitude : ((digitsValue (Decimal.digitsOf scale n.whole n.fraction) : ℕ) : ℚ) =
      (digitsValue n.whole + digitsValue n.fraction / 10 ^ n.fraction.length) *
        10 ^ scale.toNat := by
    rw [digits, hm]
    push_cast
    rw [pow_add]
    field_simp
  unfold value Decimal.signed
  split
  · push_cast
    rw [magnitude]
    ring
  · rw [Int.cast_natCast, magnitude]
    ring

end Numeral

namespace Decimal

variable {n : Numeral} {s : List Char} {precision scale : UInt8} {raw : Int64}

/-! ## What is read -/

/-- What is read is a numeral within the digits of the type. -/
theorem exists_numeral_of_read (h : read precision scale s = some raw) :
    ∃ n : Numeral, n.Spells s ∧ n.Within precision scale := by
  rcases parts : (splitOnce '.' (splitSign s).2).getD ((splitSign s).2, []) with ⟨whole, fraction⟩
  rw [read_of_parts rfl parts] at h
  split_ifs at h with empty digits long large
  simp only [Bool.not_eq_true', Bool.not_eq_false, Bool.and_eq_true, List.all_eq_true] at digits
  simp only [Bool.or_eq_true, decide_eq_true_eq, not_or, Nat.not_lt] at long
  refine ⟨_, Numeral.spells_of_parts parts digits.1 digits.2 ?_, long.1, long.2⟩
  simpa [List.append_eq_nil_iff] using empty

/-- A numeral within the digits of the type has fewer units than 64 bits hold. -/
theorem digitsValue_lt_of_within (spells : n.Spells s) (within : n.Within precision scale)
    (le : scale.toNat ≤ precision.toNat) :
    digitsValue (digitsOf scale n.whole n.fraction) < 10 ^ precision.toNat :=
  digitsValue_digitsOf_lt le spells.whole spells.fraction within.whole within.fraction

/-- **A numeral within the digits of the type is read.** -/
theorem read_of_spells (spells : n.Spells s) (within : n.Within precision scale)
    (le : scale.toNat ≤ precision.toNat) (bound : precision ≤ maxPrecision) :
    read precision scale s = some
      (Int64.ofInt (signed n.negative (digitsValue (digitsOf scale n.whole n.fraction)))) := by
  obtain ⟨unsigned, sign, parts⟩ := spells.parts
  have top := le_maxValue bound (digitsValue_lt_of_within spells within le)
  have full : (n.whole.isEmpty && n.fraction.isEmpty) = false := by
    simpa [List.append_eq_nil_iff] using spells.nonempty
  rw [read_of_parts sign parts, full, List.all_eq_true.mpr spells.whole,
    List.all_eq_true.mpr spells.fraction, if_neg (by simp), if_neg (by simp),
    if_neg (by simpa using ⟨within.whole, within.fraction⟩), if_neg (Int.not_lt.mpr top)]

def InRange (i : Int) : Prop := Int64.minValue.toInt ≤ i ∧ i ≤ Int64.maxValue.toInt

/-- **No step leaves the 64 bits**, as long as the whole does not: neither the product nor the sum
that takes the next digit in. -/
theorem exists_step {ds rest : List Char} {d : Char}
    (top : (digitsValue (ds ++ d :: rest) : Int) ≤ Int64.maxValue.toInt) :
    ∃ before, ds.foldlM pushDigit 0 = some before ∧ InRange (before.toInt * 10) ∧
      InRange (before.toInt * 10 + digitValue d) := by
  have value : digitsValue (ds ++ d :: rest) =
      (digitsValue ds * 10 + digitValue d) * 10 ^ rest.length + digitsValue rest := by
    rw [digitsValue_append, digitsValue_cons, List.length_cons]
    ring
  have later : digitsValue ds * 10 + digitValue d ≤ digitsValue (ds ++ d :: rest) := by
    rw [value]
    exact Nat.le_trans (Nat.le_mul_of_pos_right _ (Nat.pow_pos (by decide))) (Nat.le_add_right _ _)
  have limit : Int64.minValue.toInt = -2 ^ 63 := by decide
  have small : ¬Int64.maxValue.toInt < (digitsValue ds : Int) := by omega
  have loop : ds.foldlM pushDigit 0 = some (Int64.ofInt (digitsValue ds)) := by
    rw [foldlM_pushDigit, int64?_natCast, if_neg small]
  have toInt : (Int64.ofInt (signed false (digitsValue ds))).toInt = signed false (digitsValue ds) :=
    toInt_ofInt_signed (Int.not_lt.mp small)
  change (Int64.ofInt (digitsValue ds)).toInt = digitsValue ds at toInt
  refine ⟨_, loop, ?_⟩
  rw [toInt]
  exact ⟨⟨by omega, by omega⟩, ⟨by omega, by omega⟩⟩

/-! ## What is shown -/

def shown (raw : Int64) (scale : UInt8) : Numeral where
  negative := decide (raw.toInt < 0)
  whole := Nat.toDigits 10 (raw.toInt.natAbs / 10 ^ scale.toNat)
  fraction := places scale raw.toInt.natAbs

theorem spells_text (raw : Int64) (scale : UInt8) :
    (shown raw scale).Spells (text raw scale).toList := by
  refine ⟨⟨if decide (raw.toInt < 0) then ['-'] else [], if scale = 0 then [] else ['.'],
      ?_, ?_, ?_⟩, fun c hc => isDigit_of_mem_toDigits hc, isDigit_of_mem_places, ?_⟩
  · unfold shown
    cases decide (raw.toInt < 0)
    · exact .absent
    · exact .minus
  · by_cases zero : scale = 0
    · exact .inr ⟨if_pos zero, if_pos zero⟩
    · exact .inl (if_neg zero)
  · rw [toList_text]
    by_cases zero : scale = 0
    · simp [shown, places, zero]
    · simp [shown, zero]
  · exact fun none => Nat.toDigits_ne_nil (List.append_eq_nil_iff.mp none).1

theorem value_shown (raw : Int64) (scale : UInt8) :
    (shown raw scale).value = raw.toInt / 10 ^ scale.toNat := by
  have length : (shown raw scale).fraction.length = scale.toNat := length_places
  have units := Numeral.value_mul (n := shown raw scale) (Nat.le_of_eq length)
  have same : signed (decide (raw.toInt < 0)) raw.toInt.natAbs = raw.toInt := by
    unfold signed
    simp only [decide_eq_true_eq]
    split_ifs <;> omega
  have raws : (signed (shown raw scale).negative
      (digitsValue (digitsOf scale (shown raw scale).whole (shown raw scale).fraction)) : ℚ) =
      raw.toInt := by
    unfold shown
    rw [digitsValue_digitsOf, same]
  rw [raws] at units
  rw [← units]
  field_simp

theorem point_mem_text_iff (raw : Int64) (scale : UInt8) :
    '.' ∈ (text raw scale).toList ↔ scale ≠ 0 := by
  have whole : '.' ∉ Nat.toDigits 10 (raw.toInt.natAbs / 10 ^ scale.toNat) := fun h =>
    absurd (isDigit_of_mem_toDigits h) (by decide)
  rw [toList_text]
  by_cases zero : scale = 0
  · cases decide (raw.toInt < 0) <;> simp [zero] at whole ⊢ <;> exact whole
  · simp [zero]

/-- **Decimals are exact.** A decimal type that a declaration can give reads just the numerals within
its digits, blanks around them aside. It reads of one just what the numeral denotes in units of the
last place, less than a power of ten in size, and no step on the way leaves the 64 bits. What is shown
of any decimal is a numeral with as many digits after the point as the scale says, and with no point
if there are none, which denotes the decimal. -/
theorem decimals_exact :
    (∀ (name : String) (args : List Nat) (precision scale : UInt8),
      ScalarType.ofParts name args = .ok (.numeric precision scale) → ∀ input : String,
        ((∃ v, (ScalarType.numeric precision scale).readValue input = .ok v) ↔
          ∃ n : Numeral, n.Spells (trim input.toList) ∧ n.Within precision scale) ∧
        ∀ n : Numeral, n.Spells (trim input.toList) → n.Within precision scale →
          (∃ raw : Int64,
            (ScalarType.numeric precision scale).readValue input = .ok (.numeric raw scale) ∧
              (raw.toInt : ℚ) = n.value * 10 ^ scale.toNat ∧
              raw.toInt.natAbs < 10 ^ precision.toNat) ∧
          ∀ ds d rest, digitsOf scale n.whole n.fraction = ds ++ d :: rest →
            ∃ before, ds.foldlM pushDigit 0 = some before ∧ InRange (before.toInt * 10) ∧
              InRange (before.toInt * 10 + digitValue d)) ∧
    ∀ (raw : Int64) (scale : UInt8), ∃ n : Numeral,
      n.Spells (Value.numeric raw scale).display.toList ∧ n.fraction.length = scale.toNat ∧
        ('.' ∈ (Value.numeric raw scale).display.toList ↔ scale ≠ 0) ∧
        n.value = raw.toInt / 10 ^ scale.toNat := by
  refine ⟨fun name args precision scale given input => ?_, fun raw scale => ?_⟩
  · obtain ⟨le, bound⟩ : scale.toNat ≤ precision.toNat ∧ precision ≤ maxPrecision :=
      ScalarType.storable_of_ofParts given
    have reads : ∀ n : Numeral, n.Spells (trim input.toList) → n.Within precision scale →
        (ScalarType.numeric precision scale).readValue input = .ok (.numeric (Int64.ofInt
          (signed n.negative (digitsValue (digitsOf scale n.whole n.fraction)))) scale) := by
      intro n spells within
      exact ScalarType.elim_eq_ok_iff.mpr ⟨_, read_of_spells spells within le bound, rfl⟩
    constructor
    · constructor
      · rintro ⟨v, hv⟩
        obtain ⟨raw, hraw, -⟩ := ScalarType.elim_eq_ok_iff.mp hv
        exact exists_numeral_of_read hraw
      · rintro ⟨n, spells, within⟩
        exact ⟨_, reads n spells within⟩
    · intro n spells within
      have small := digitsValue_lt_of_within spells within le
      have top := le_maxValue bound small
      refine ⟨⟨_, reads n spells within, ?_, ?_⟩, ?_⟩
      · rw [toInt_ofInt_signed top, Numeral.value_mul within.fraction]
      · rw [toInt_ofInt_signed top, natAbs_signed]
        exact small
      · intro ds d rest digits
        rw [digits] at top
        exact exists_step top
  · exact ⟨shown raw scale, spells_text raw scale, length_places, point_mem_text_iff raw scale,
      value_shown raw scale⟩

/-- All digits that there may be before the point, two zeros more, and one digit of two after it. -/
theorem decimals_exact_widest :
    ScalarType.ofParts "Decimal" [18, 2] = .ok (.numeric 18 2) ∧
      (∃ raw : Int64, (ScalarType.numeric 18 2).readValue "\t-009999999999999999.9 " =
          .ok (.numeric raw 2) ∧ raw.toInt = -999999999999999990) ∧
      ¬∃ v, (ScalarType.numeric 18 2).readValue "1e2" = .ok v := by
  have given : ScalarType.ofParts "Decimal" [18, 2] = .ok (.numeric 18 2) := by decide +kernel
  have reads := decimals_exact.1 "Decimal" [18, 2] 18 2 given
  refine ⟨given, ?_, ?_⟩
  · have spells : Numeral.Spells ⟨true, "009999999999999999".toList, ['9']⟩
        (trim "\t-009999999999999999.9 ".toList) :=
      ⟨⟨['-'], ['.'], .minus, .inl rfl, by decide +kernel⟩, List.all_eq_true.mp (by decide),
        List.all_eq_true.mp (by decide), by decide⟩
    obtain ⟨⟨raw, read, denoted, -⟩, -⟩ := (reads _).2 _ spells ⟨by decide, by decide⟩
    have whole : digitsValue "009999999999999999".toList = 9999999999999999 := by decide +kernel
    have fraction : digitsValue ['9'] = 9 := by decide
    have scale : (2 : UInt8).toNat = 2 := rfl
    have units : (raw.toInt : ℚ) = (-999999999999999990 : Int) := by
      rw [denoted, Numeral.value, whole, fraction, scale]
      norm_num
    exact ⟨raw, read, Int.cast_injective units⟩
  · rw [(reads _).1]
    rintro ⟨n, spells, -⟩
    obtain ⟨unsigned, sign, parts⟩ := spells.parts
    have plain : Decimal.splitSign (trim "1e2".toList) = (false, ['1', 'e', '2']) := by
      decide +kernel
    obtain ⟨-, rfl⟩ := Prod.mk.inj (plain.symm.trans sign)
    obtain ⟨whole, -⟩ := Prod.mk.inj parts
    have letter : 'e' ∈ n.whole := whole ▸ (by decide)
    exact absurd (spells.whole 'e' letter) (by decide)

end Decimal

end TemporalDB
