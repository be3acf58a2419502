import TemporalDB.Json.Printer
import TemporalDB.Json.Token
import TemporalDB.Proofs.Text.Number

/-!
# Scalars, written and scanned

A string is scanned from its quoted form, whatever characters are in it, and an integer of 64 bits
from its digits, if nothing follows that would go on with a number.
-/

namespace TemporalDB.Json

open Text

variable {c e : Char} {tail rest s : List Char} {pieces : List Piece} {n : Nat}

/-! ## Strings -/

/-- A unit that is no half of a pair is a character by itself. -/
theorem joinPieces_unit (h : n < 0xD800) :
    joinPieces (.unit n :: pieces) = (joinPieces pieces).map (Char.ofNat n :: ·) := by
  have low : ¬ 0xD800 ≤ n := Nat.not_le.mpr h
  have high : ¬ 0xDC00 ≤ n := by omega
  rcases pieces with _ | ⟨_ | m, pieces⟩ <;> simp [joinPieces, low, high]

/-- What pieces are scanned from a text once the first of them is known. -/
def withPiece (p : Piece) (tail : List Char) : Option (List Piece × List Char) :=
  (scanPieces tail).map fun x => (p :: x.1, x.2)

theorem scanPieces_escaped (h : escaped e = some c) (short : e ≠ 'u') :
    scanPieces ('\\' :: e :: tail) = withPiece (.char c) tail := by
  rw [scanPieces, h, withPiece]
  · cases scanPieces tail <;> rfl
  · intro _ _ _ _ _ same
    exact absurd same short

theorem scanPieces_unit {a b d : Char} (h : hexUnit a b c d = some n) :
    scanPieces ('\\' :: 'u' :: a :: b :: c :: d :: tail) = withPiece (.unit n) tail := by
  rw [scanPieces, h, withPiece]
  cases scanPieces tail <;> rfl

theorem scanPieces_char (printable : ¬ c.toNat < 0x20) (quote : c ≠ '"') (backslash : c ≠ '\\') :
    scanPieces (c :: tail) = withPiece (.char c) tail := by
  rw [scanPieces, withPiece]
  · simp only [printable, backslash, decide_false, Bool.or_self, Bool.false_eq_true, if_false]
    cases scanPieces tail <;> rfl
  · exact quote
  · intro _ _ _ _ _ same
    exact absurd same backslash
  · intro _ _ same
    exact absurd same backslash

/-- The unit of a control character is given by two digits of base sixteen. -/
theorem hexUnit_control (h : n < 0x20) :
    hexUnit '0' '0' (Nat.digitChar (n / 16)) (Nat.digitChar (n % 16)) = some n :=
  (by decide : ∀ n < 0x20,
    hexUnit '0' '0' (Nat.digitChar (n / 16)) (Nat.digitChar (n % 16)) = some n) n h

/-- A character that was written is scanned as one piece, which stands for it. -/
theorem exists_piece (c : Char) : ∃ p, (∀ tail, scanPieces (escape c ++ tail) = withPiece p tail) ∧
    ∀ pieces, joinPieces (p :: pieces) = (joinPieces pieces).map (c :: ·) := by
  -- only the control characters without a letter of their own are written by their number
  by_cases control : c.toNat < 0x20 ∧ c ∉ ['\x08', '\x0c', '\n', '\r', '\t']
  · obtain ⟨low, long⟩ := control
    refine ⟨.unit c.toNat, fun tail => ?_, fun pieces => ?_⟩
    · have other : c ≠ '"' ∧ c ≠ '\\' := by
        constructor <;> rintro rfl <;> exact absurd low (by decide)
      have same : escape c =
          ['\\', 'u', '0', '0', Nat.digitChar (c.toNat / 16), Nat.digitChar (c.toNat % 16)] := by
        simp only [List.mem_cons, not_or, List.not_mem_nil, not_false_eq_true, and_true] at long
        simp [escape, other, long, low]
      rw [same]
      exact scanPieces_unit (hexUnit_control low)
    · rw [joinPieces_unit (Nat.lt_trans low (by decide)), Char.ofNat_toNat]
  · refine ⟨.char c, fun tail => ?_, fun pieces => by rw [joinPieces]⟩
    unfold escape
    split_ifs with h₁ h₂ h₃ h₄ h₅ h₆ h₇
    · rw [Bool.or_eq_true, decide_eq_true_eq, decide_eq_true_eq] at h₁
      rcases h₁ with rfl | rfl
      · exact scanPieces_escaped rfl (by decide)
      · exact scanPieces_escaped rfl (by decide)
    · subst h₂
      exact scanPieces_escaped rfl (by decide)
    · subst h₃
      exact scanPieces_escaped rfl (by decide)
    · subst h₄
      exact scanPieces_escaped rfl (by decide)
    · subst h₅
      exact scanPieces_escaped rfl (by decide)
    · subst h₆
      exact scanPieces_escaped rfl (by decide)
    · exact absurd ⟨h₇, by simp [*]⟩ control
    · simp only [Bool.or_eq_true, decide_eq_true_eq, not_or] at h₁
      exact scanPieces_char h₇ h₁.1 h₁.2

/-- The pieces of a string that was written are scanned up to its closing quote, and they make the
string. -/
theorem exists_scanPieces (s : List Char) : ∃ pieces,
    scanPieces (s.flatMap escape ++ '"' :: rest) = some (pieces, rest) ∧
      joinPieces pieces = some s := by
  induction s with
  | nil => exact ⟨[], by rw [List.flatMap_nil, List.nil_append, scanPieces], by rw [joinPieces]⟩
  | cons c s ih =>
      obtain ⟨pieces, scanned, joined⟩ := ih
      obtain ⟨p, first, stands⟩ := exists_piece c
      refine ⟨p :: pieces, ?_, ?_⟩
      · rw [List.flatMap_cons, List.append_assoc, first, withPiece, scanned]
        rfl
      · rw [stands, joined]
        rfl

/-- **A string is scanned as it was written.** -/
theorem scan_writeString (s : String) :
    scan '"' (s.toList.flatMap escape ++ '"' :: rest) =
      some (.scalar (.string (some s)), rest) := by
  obtain ⟨pieces, scanned, joined⟩ := @exists_scanPieces rest s.toList
  have token : stringOfPieces pieces = .string (some s) := by
    rw [stringOfPieces, joined, Option.map_some, String.ofList_toList]
  rw [scan, scanned, Option.map_some]
  show some (Token.scalar (stringOfPieces pieces), rest) = _
  rw [token]

/-! ## Integers -/

/-- What stands after a value: nothing, a comma or a line break. -/
def EndsValue (rest : List Char) : Prop := ∀ c ∈ rest.head?, c = ',' ∨ c = '\n'

theorem endsValue_nil : EndsValue [] := by rintro _ ⟨⟩

theorem endsValue_comma : EndsValue (',' :: rest) := by
  rintro _ ⟨⟩
  exact .inl rfl

theorem endsValue_newLine {depth : Nat} : EndsValue (newLine depth ++ rest) := by
  rintro _ ⟨⟩
  exact .inr rfl

theorem EndsValue.noDigit (h : EndsValue rest) : NoDigit rest := by
  intro c hc
  rcases h c hc with rfl | rfl <;> rfl

theorem scanDigits_toDigits (stop : NoDigit rest) :
    scanDigits (Nat.toDigits 10 n ++ rest) = some (Nat.toDigits 10 n, rest) := by
  have digits : ∀ c ∈ Nat.toDigits 10 n, c.isDigit = true := fun c => isDigit_of_mem_toDigits
  have some : (Nat.toDigits 10 n).isEmpty = false := by simp [Nat.toDigits_ne_nil]
  rw [scanDigits, takeWhile_isDigit_append digits stop, dropWhile_isDigit_append digits stop, some]
  rfl

/-- Digits that no point and no exponent follows are a number of their own. -/
theorem scanNumber_of_scanDigits {negative : Bool} {ds : List Char} (zero : ∀ s', s ≠ '0' :: s')
    (h : scanDigits s = some (ds, rest)) (ends : EndsValue rest) :
    scanNumber negative s = some (numberOf negative ds none none, rest) := by
  unfold scanNumber
  split
  · next s' => exact absurd rfl (zero s')
  · rw [h]
    rcases rest with _ | ⟨c, rest⟩
    · rfl
    · rcases ends c rfl with rfl | rfl <;> rfl

theorem scanNumber_toDigits {negative : Bool} (ends : EndsValue rest) :
    scanNumber negative (Nat.toDigits 10 n ++ rest) =
      some (numberOf negative (Nat.toDigits 10 n) none none, rest) := by
  -- A zero is scanned by itself, since no number may have one in front of other digits.
  by_cases zero : ∃ ds, Nat.toDigits 10 n = '0' :: ds
  · obtain ⟨ds, hds⟩ := zero
    obtain rfl : ds = [] := eq_nil_of_toDigits_eq_cons hds
    rw [hds]
    rcases rest with _ | ⟨c, rest⟩
    · rfl
    · rcases ends c rfl with rfl | rfl <;> rfl
  · refine scanNumber_of_scanDigits ?_ (scanDigits_toDigits ends.noDigit) ends
    intro s' hs
    obtain ⟨d, ds, hd⟩ := List.exists_cons_of_ne_nil (@Nat.toDigits_ne_nil n 10)
    rw [hd, List.cons_append] at hs
    obtain ⟨rfl, -⟩ := List.cons.inj hs
    exact zero ⟨ds, hd⟩

def InRange (n : Int) : Prop := Int64.minValue.toInt ≤ n ∧ n < bound64

theorem numberOf_toDigits {n : Int} (h : InRange n) :
    numberOf (decide (n < 0)) (Nat.toDigits 10 n.natAbs) none none = .integer n := by
  have same : (if decide (n < 0) = true then -(n.natAbs : Int) else n.natAbs) = n := by
    split_ifs with negative
    · rw [decide_eq_true_eq] at negative
      omega
    · rw [decide_eq_true_eq] at negative
      omega
  have sign : (!(decide (n < 0) && decide (n = 0))) = true := by
    simp only [Bool.not_eq_true', Bool.and_eq_false_iff, decide_eq_false_iff_not]
    omega
  unfold numberOf
  rw [digitsValue_toDigits, same]
  simp only [Option.isNone_none, Bool.true_and, sign, h.1, h.2, decide_true, if_true]

theorem scan_digit (digit : c.isDigit = true) :
    scan c rest = (scanNumber false (c :: rest)).map fun x => (.scalar x.1, x.2) := by
  unfold scan
  split
  case h_12 => rw [if_pos digit]
  all_goals exact absurd digit (by decide)

theorem isGap_eq_false_of_isDigit (digit : c.isDigit = true) : isGap c = false := by
  rw [Bool.eq_false_iff]
  intro gap
  simp only [isGap, Bool.or_eq_true, decide_eq_true_eq] at gap
  rcases gap with ((rfl | rfl) | rfl) | rfl <;> exact absurd digit (by decide)

/-- **An integer of 64 bits is scanned as it was written**, before all that may follow a value. -/
theorem exists_scan_showInt {n : Int} (h : InRange n) (ends : EndsValue rest) :
    ∃ c s, (showInt n).toList ++ rest = c :: s ∧ isGap c = false ∧ rest.length ≤ s.length ∧
      scan c s = some (.scalar (.integer n), rest) := by
  have number := numberOf_toDigits h
  rw [toList_showInt]
  by_cases negative : n < 0
  · refine ⟨'-', Nat.toDigits 10 n.natAbs ++ rest, by rw [if_pos negative]; rfl, rfl,
      (List.suffix_append _ rest).length_le, ?_⟩
    rw [decide_eq_true negative] at number
    rw [scan, scanNumber_toDigits ends, number]
    rfl
  · obtain ⟨d, ds, hd⟩ := List.exists_cons_of_ne_nil (@Nat.toDigits_ne_nil n.natAbs 10)
    have digit : d.isDigit = true :=
      isDigit_of_mem_toDigits (by rw [hd]; exact List.mem_cons_self)
    rw [if_neg negative, List.nil_append]
    refine ⟨d, ds ++ rest, by rw [hd, List.cons_append], isGap_eq_false_of_isDigit digit,
      (List.suffix_append ds rest).length_le, ?_⟩
    rw [decide_eq_false negative] at number
    have scanned := @scanNumber_toDigits rest n.natAbs false ends
    rw [number, hd, List.cons_append] at scanned
    rw [scan_digit digit, scanned]
    rfl

end TemporalDB.Json
