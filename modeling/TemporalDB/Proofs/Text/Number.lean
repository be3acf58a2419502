import Mathlib.Data.Nat.Digits.Defs
import Mathlib.Tactic.Linarith
import Mathlib.Tactic.Ring
import TemporalDB.Text.Number
import TemporalDB.Text.Blank

/-!
# Numbers written and read

A count that is written in base ten is read back as itself, if it lies below the bound that is
asked for, and so is an integer. The digits of a number are no blanks, and as many of them as there
are bound it.
-/

namespace TemporalDB.Text

variable {bound n : Nat} {c : Char} {ds es rest : List Char}

/-! ## Digits -/

theorem digitsValue_toDigits : digitsValue (Nat.toDigits 10 n) = n := by
  have value : digitsValue (Nat.toDigits 10 n) = Nat.ofDigitChars 10 (Nat.toDigits 10 n) 0 := by
    rw [Nat.ofDigitChars_eq_foldl]
    unfold digitsValue digitValue
    simp only [Nat.mul_comm]
  rw [value, Nat.ofDigitChars_ten_toDigits]

theorem isDigit_of_mem_toDigits (h : c ∈ Nat.toDigits 10 n) : c.isDigit = true :=
  Nat.isDigit_of_mem_toDigits (by decide) (by decide) h

theorem readDigits_toDigits : readDigits (Nat.toDigits 10 n) = some n := by
  have full : (Nat.toDigits 10 n).isEmpty = false := by simp [Nat.toDigits_ne_nil]
  have digits : (Nat.toDigits 10 n).all Char.isDigit = true :=
    List.all_eq_true.mpr fun _ h => isDigit_of_mem_toDigits h
  rw [readDigits, full, digits, digitsValue_toDigits]
  rfl

theorem foldl_digits (start : Nat) : ds.foldl (fun n d => n * 10 + digitValue d) start =
    start * 10 ^ ds.length + digitsValue ds := by
  unfold digitsValue
  induction ds generalizing start with
  | nil => simp
  | cons d ds ih =>
      rw [List.foldl_cons, List.foldl_cons, ih, ih (0 * 10 + digitValue d), List.length_cons,
        Nat.pow_succ]
      ring

/-- Digits count for more, the more digits come after them. -/
theorem digitsValue_append :
    digitsValue (ds ++ es) = digitsValue ds * 10 ^ es.length + digitsValue es := by
  rw [digitsValue, List.foldl_append, foldl_digits]
  rfl

theorem digitsValue_cons (d : Char) :
    digitsValue (d :: ds) = digitValue d * 10 ^ ds.length + digitsValue ds := by
  rw [← List.singleton_append, digitsValue_append]
  congr 2
  exact Nat.zero_add _

theorem digitsValue_replicate_zero (count : Nat) :
    digitsValue (List.replicate count '0') = 0 := by
  induction count with
  | zero => rfl
  | succ count ih =>
      rw [List.replicate_succ, digitsValue_cons, ih]
      exact Nat.zero_mul _

theorem digitsValue_zeroPadded (width : Nat) : digitsValue (zeroPadded width n) = n := by
  rw [zeroPadded, digitsValue_append, digitsValue_replicate_zero, Nat.zero_mul, Nat.zero_add,
    digitsValue_toDigits]

theorem digitValue_lt (h : c.isDigit = true) : digitValue c < 10 := by
  simp only [Char.isDigit, Bool.and_eq_true, decide_eq_true_eq] at h
  have high : c.toNat ≤ 57 := by simpa using UInt32.le_iff_toNat_le.mp h.2
  show c.toNat - 48 < 10
  omega

theorem digitValue_pos (h : c.isDigit = true) (other : c ≠ '0') : 0 < digitValue c := by
  simp only [Char.isDigit, Bool.and_eq_true, decide_eq_true_eq] at h
  have low : 48 ≤ c.toNat := by simpa using UInt32.le_iff_toNat_le.mp h.1
  have different : c.toNat ≠ 48 := fun same => other (Char.toNat_inj.mp same)
  show 0 < c.toNat - 48
  omega

theorem digitsValue_lt (h : ∀ c ∈ ds, c.isDigit = true) : digitsValue ds < 10 ^ ds.length := by
  induction ds with
  | nil => exact Nat.one_pos
  | cons d ds ih =>
      rw [List.forall_mem_cons] at h
      have first := digitValue_lt h.1
      have others := ih h.2
      rw [digitsValue_cons, List.length_cons, Nat.pow_succ]
      nlinarith

theorem digitsValue_dropWhile : digitsValue (ds.dropWhile (· = '0')) = digitsValue ds := by
  induction ds with
  | nil => rfl
  | cons d ds ih =>
      rw [List.dropWhile_cons]
      split
      · next zero =>
          rw [ih, digitsValue_cons, of_decide_eq_true zero]
          exact (Nat.zero_add _).symm.trans (by rw [digitValue]; simp)
      · rfl

/-- A number below a power of ten has no more digits than the power has zeros, those in front not
counted. -/
theorem length_dropWhile_le {width : Nat} (digits : ∀ c ∈ ds, c.isDigit = true)
    (h : digitsValue ds < 10 ^ width) : (ds.dropWhile (· = '0')).length ≤ width := by
  rw [← digitsValue_dropWhile] at h
  cases hs : ds.dropWhile (· = '0') with
  | nil => exact Nat.zero_le _
  | cons d es =>
      have other : d ≠ '0' := by
        have head := List.head_dropWhile_not (· = '0') (l := ds)
          (by rw [hs]; exact List.cons_ne_nil _ _)
        simpa [hs] using head
      have pos : 0 < digitValue d := by
        apply digitValue_pos (digits d _) other
        exact (List.dropWhile_sublist _).subset (by rw [hs]; exact List.mem_cons_self)
      rw [hs, digitsValue_cons] at h
      have least : 10 ^ es.length < 10 ^ width :=
        Nat.lt_of_le_of_lt (Nat.le_trans (Nat.le_mul_of_pos_left _ pos) (Nat.le_add_right _ _)) h
      exact (Nat.pow_lt_pow_iff_right (by decide)).mp least

/-- Digits that have a zero in front and are those of a number are this zero alone. -/
theorem eq_nil_of_toDigits_eq_cons (h : Nat.toDigits 10 n = '0' :: ds) : ds = [] := by
  by_contra some
  have value : digitsValue ds = n := by
    have all := @digitsValue_toDigits n
    rw [h, digitsValue_cons] at all
    simpa [digitValue] using all
  have small : n < 10 ^ ds.length := by
    rw [← value]
    apply digitsValue_lt
    intro c hc
    exact isDigit_of_mem_toDigits (by rw [h]; exact List.mem_cons_of_mem _ hc)
  have short : (Nat.toDigits 10 n).length ≤ ds.length :=
    Nat.toDigits_length 10 n ds.length (List.length_pos_iff.mpr some) small
  rw [h, List.length_cons] at short
  exact Nat.not_succ_le_self _ short

theorem isDigit_of_mem_zeroPadded {width : Nat} (h : c ∈ zeroPadded width n) :
    c.isDigit = true := by
  rcases List.mem_append.mp h with zero | digit
  · rw [(List.mem_replicate.mp zero).2]
    rfl
  · exact isDigit_of_mem_toDigits digit

/-- A number that fits a width is padded to just this width. -/
theorem length_zeroPadded {width : Nat} (pos : 0 < width) (h : n < 10 ^ width) :
    (zeroPadded width n).length = width := by
  have fits : (Nat.toDigits 10 n).length ≤ width := Nat.toDigits_length 10 n width pos h
  rw [zeroPadded, List.length_append, List.length_replicate, Nat.sub_add_cancel fits]

theorem le_length_zeroPadded (width n : Nat) : width ≤ (zeroPadded width n).length := by
  rw [zeroPadded, List.length_append, List.length_replicate]
  omega

/-! ## Where digits end -/

def NoDigit (s : List Char) : Prop := ∀ c ∈ s.head?, c.isDigit = false

theorem noDigit_cons (h : c.isDigit = false) : NoDigit (c :: rest) := by
  rintro _ ⟨⟩
  exact h

/-- A run ends where something comes that does not go on with it. -/
theorem takeWhile_append_of_stop {p : Char → Bool} (run : ∀ c ∈ ds, p c = true)
    (stop : ∀ c ∈ rest.head?, p c = false) : (ds ++ rest).takeWhile p = ds := by
  rw [List.takeWhile_append_of_pos run]
  cases rest with
  | nil => simp
  | cons c rest => simp [stop c rfl]

theorem dropWhile_append_of_stop {p : Char → Bool} (run : ∀ c ∈ ds, p c = true)
    (stop : ∀ c ∈ rest.head?, p c = false) : (ds ++ rest).dropWhile p = rest := by
  rw [List.dropWhile_append_of_pos run]
  cases rest with
  | nil => rfl
  | cons c rest => simp [stop c rfl]

theorem takeWhile_isDigit_append (digits : ∀ c ∈ ds, c.isDigit = true) (stop : NoDigit rest) :
    (ds ++ rest).takeWhile Char.isDigit = ds := takeWhile_append_of_stop digits stop

theorem dropWhile_isDigit_append (digits : ∀ c ∈ ds, c.isDigit = true) (stop : NoDigit rest) :
    (ds ++ rest).dropWhile Char.isDigit = rest := dropWhile_append_of_stop digits stop

/-! ## Counts -/

theorem toList_showNat : (showNat n).toList = Nat.toDigits 10 n := String.toList_ofList

/-- A count that was written is read just if it lies below the bound. -/
theorem readCount_showNat_eq :
    readCount bound (showNat n).toList = if n < bound then some n else none := by
  rw [toList_showNat]
  have unsigned : ∀ rest, Nat.toDigits 10 n ≠ '+' :: rest := by
    intro rest hs
    have plus : '+'.isDigit = true :=
      isDigit_of_mem_toDigits (by rw [hs]; exact List.mem_cons_self)
    exact absurd plus (by decide)
  unfold readCount
  split
  · next rest hs => exact absurd hs (unsigned rest)
  · rw [readDigits_toDigits]
    rfl

/-- **A count is read as it was written.** -/
theorem readCount_showNat (h : n < bound) : readCount bound (showNat n).toList = some n := by
  rw [readCount_showNat_eq, if_pos h]

theorem lt_of_readCount {s : List Char} (h : readCount bound s = some n) : n < bound := by
  have below : ∀ read : Option Nat,
      (read >>= fun m => if m < bound then some m else none) = some n → n < bound := by
    intro read h
    obtain ⟨m, -, h⟩ := Option.bind_eq_some_iff.mp h
    split_ifs at h with small
    cases h
    exact small
  unfold readCount at h
  split at h
  · exact below _ h
  · exact below _ h

theorem isBlank_eq_false_of_isDigit (h : c.isDigit = true) : isBlank c = false := by
  simp only [Char.isDigit, Bool.and_eq_true, decide_eq_true_eq] at h
  have low : 48 ≤ c.toNat := by simpa using UInt32.le_iff_toNat_le.mp h.1
  have high : c.toNat ≤ 57 := by simpa using UInt32.le_iff_toNat_le.mp h.2
  simp only [isBlank, CharSet.contains, whiteSpace, CharSet.holds, Bool.and_eq_false_iff,
    Bool.or_eq_false_iff, decide_eq_false_iff_not]
  omega

/-! ## Integers -/

theorem toList_showInt (n : Int) :
    (showInt n).toList = (if n < 0 then ['-'] else []) ++ Nat.toDigits 10 n.natAbs :=
  String.toList_ofList

theorem readInteger_minus (s : List Char) :
    readInteger ('-' :: s) = (readDigits s).map fun n : Nat => -(n : Int) := by
  show Option.map _ _ = _
  cases readDigits s <;> rfl

/-- **An integer is read as it was written.** -/
theorem readInteger_showInt (n : Int) : readInteger (showInt n).toList = some n := by
  rw [toList_showInt]
  split_ifs with negative
  · have same : -(n.natAbs : Int) = n := by omega
    rw [List.singleton_append, readInteger_minus, readDigits_toDigits, Option.map_some, same]
  · have same : Int.ofNat n.natAbs = n := Int.natAbs_of_nonneg (Int.not_lt.mp negative)
    have unsigned : ∀ c rest, Nat.toDigits 10 n.natAbs = c :: rest → c.isDigit = true := by
      intro c rest hs
      exact isDigit_of_mem_toDigits (by rw [hs]; exact List.mem_cons_self)
    rw [List.nil_append]
    unfold readInteger
    split
    · next hs => exact absurd (unsigned _ _ hs) (by decide)
    · next hs => exact absurd (unsigned _ _ hs) (by decide)
    · rw [readDigits_toDigits, Option.map_some, same]

theorem int64?_natCast (n : Nat) : int64? n =
    if Int64.maxValue.toInt < n then none else some (Int64.ofInt n) := by
  have low : Int64.minValue.toInt ≤ (n : Int) := Int.le_trans (by decide) (Int.natCast_nonneg n)
  unfold int64?
  split_ifs with inside large large
  · exact absurd large (Int.not_lt.mpr inside.2)
  · rfl
  · rfl
  · exact absurd ⟨low, Int.not_lt.mp large⟩ inside

theorem toInt_of_int64? {n : Int} {m : Int64} (h : int64? n = some m) : m.toInt = n := by
  unfold int64? at h
  split_ifs at h with inside
  obtain ⟨low, high⟩ := inside
  have least : Int64.minValue.toInt = -2 ^ 63 := by decide
  have limit : Int64.maxValue.toInt = 2 ^ 63 - 1 := by decide
  rw [← Option.some.inj h, Int64.toInt_ofInt_of_le (by omega) (by omega)]

theorem int64?_toInt (n : Int64) : int64? n.toInt = some n := by
  rw [int64?, if_pos ⟨n.minValue_le_toInt, n.toInt_le⟩, Int64.ofInt_toInt]

theorem readInt64_showInt (n : Int64) : readInt64 (showInt n.toInt).toList = some n := by
  rw [readInt64, readInteger_showInt, Option.bind_some, int64?_toInt]

end TemporalDB.Text
