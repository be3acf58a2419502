import TemporalDB.Proofs.Decimal
import TemporalDB.Proofs.Instant.Reading
import TemporalDB.Proofs.ScalarType

/-!
# Values, written and read

A value that was read is read back from the text that results show of it, except for an instant in
a year without four digits: its text is a literal of no type of instants.
-/

namespace TemporalDB

open Text

variable {type : ScalarType} {s : String} {v w : Value}

namespace Value

/-- Whether the text that results show of a value is a literal of the value's type: that of an
instant is one in the years of four digits only. -/
def Legible : Value → Prop
  | timestamp t => t.FourDigitYear
  | _ => True

instance : Decidable v.Legible := by
  cases v <;> unfold Legible <;> infer_instance

end Value

namespace ScalarType

theorem elim_eq_ok_iff {α : Type} {read : Option α} {e : ScalarError} {f : α → Value} :
    (read.elim (.error e) fun a => .ok (f a)) = (.ok v : Except ScalarError Value) ↔
      ∃ a, read = some a ∧ v = f a := by
  cases read <;> simp [eq_comm]

/-! ## What is read -/

theorem eq_text_of_bounded {length : UInt16} {e : ScalarError}
    (h : (if length.toNat < s.length then .error e else .ok (.text s)) =
      (.ok v : Except ScalarError Value)) : v = .text s ∧ s.length ≤ length.toNat := by
  split_ifs at h with long
  cases h
  exact ⟨rfl, Nat.not_lt.mp long⟩

/-- **A value that is read is one of its type, and it is not null.** -/
theorem conforms_of_readValue (h : type.readValue s = .ok v) :
    v.conforms type = true ∧ v ≠ .null := by
  cases type with
  | integer =>
      obtain ⟨n, -, rfl⟩ := elim_eq_ok_iff.mp h
      exact ⟨rfl, by simp⟩
  | numeric precision scale =>
      obtain ⟨raw, -, rfl⟩ := elim_eq_ok_iff.mp h
      exact ⟨decide_eq_true rfl, by simp⟩
  | char length =>
      obtain ⟨rfl, short⟩ := eq_text_of_bounded h
      exact ⟨decide_eq_true short, by simp⟩
  | varchar length =>
      obtain ⟨rfl, short⟩ := eq_text_of_bounded h
      exact ⟨decide_eq_true short, by simp⟩
  | timestamp =>
      obtain ⟨t, -, rfl⟩ := elim_eq_ok_iff.mp h
      exact ⟨rfl, by simp⟩

/-! ## What is read of what is shown -/

theorem readValue_display_integer (n : Int64) :
    integer.readValue (Value.integer n).display = .ok (.integer n) := by
  have trimmed : trim (showInt n.toInt).toList = (showInt n.toInt).toList :=
    @Decimal.trim_text 0 n
  have read : readInt64 (trim (showInt n.toInt).toList) = some n := by
    rw [trimmed, readInt64_showInt]
  exact elim_eq_ok_iff.mpr ⟨n, read, rfl⟩

theorem readValue_display_numeric {precision scale : UInt8} {raw : Int64}
    (le : scale.toNat ≤ precision.toNat) (bound : precision ≤ maxPrecision)
    (fits : Decimal.Fits precision raw) :
    (numeric precision scale).readValue (Value.numeric raw scale).display =
      .ok (.numeric raw scale) := by
  have read : Decimal.read precision scale (trim (Decimal.text raw scale).toList) = some raw := by
    rw [Decimal.trim_text, Decimal.read_text le bound fits]
  exact elim_eq_ok_iff.mpr ⟨raw, read, rfl⟩

theorem readValue_display_timestamp (t : Instant) :
    timestamp.readValue (Value.timestamp t).display =
      if t.FourDigitYear then .ok (.timestamp t)
      else .error (.invalidLiteral timestamp (Value.timestamp t).display) := by
  have read : Instant.read (trim (Value.timestamp t).display.toList) =
      if t.FourDigitYear then some t else none := by
    rw [Value.display, Instant.trim_text, Instant.read_text]
  unfold readValue
  dsimp only
  rw [read]
  split_ifs <;> rfl

/-- A value that was read is read back from its text, or else its text is refused. -/
theorem readValue_display_of_readValue (admitted : type.Admitted) (h : type.readValue s = .ok v) :
    type.readValue v.display =
      if v.Legible then .ok v else .error (.invalidLiteral type v.display) := by
  cases type with
  | integer =>
      obtain ⟨n, -, rfl⟩ := elim_eq_ok_iff.mp h
      exact readValue_display_integer n
  | numeric precision scale =>
      obtain ⟨raw, read, rfl⟩ := elim_eq_ok_iff.mp h
      obtain ⟨le, bound⟩ : scale.toNat ≤ precision.toNat ∧ precision ≤ maxPrecision :=
        admitted_iff.mp admitted
      exact readValue_display_numeric le bound (Decimal.fits_of_read le bound read)
  | char length =>
      obtain ⟨rfl, -⟩ := eq_text_of_bounded h
      exact h
  | varchar length =>
      obtain ⟨rfl, -⟩ := eq_text_of_bounded h
      exact h
  | timestamp =>
      obtain ⟨t, -, rfl⟩ := elim_eq_ok_iff.mp h
      exact readValue_display_timestamp t

/-- A value that was read can only be read back as itself. -/
theorem eq_of_readValue_display (admitted : type.Admitted) (h : type.readValue s = .ok v)
    (back : type.readValue v.display = .ok w) : w = v := by
  rw [readValue_display_of_readValue admitted h] at back
  split_ifs at back
  exact (Except.ok.inj back).symm

end ScalarType

end TemporalDB
