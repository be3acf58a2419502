import Mathlib.Data.List.Basic
import TemporalDB.Proofs.Listing.Line
import TemporalDB.Proofs.Text.Number
import TemporalDB.ScalarType

/-!
# Types written and read

A type that a declaration can give is read back from its compact text, and that text is a single
word of a line.
-/

namespace TemporalDB.ScalarType

open Text

variable {type : ScalarType} {given : String} {args : List Nat} {n p s : Nat}

/-- A type that a name and arguments can give. -/
def Admitted (type : ScalarType) : Prop := ∃ given args, ofParts given args = .ok type

/-! ## What is admitted -/

theorem decimal_eq_ok_iff : decimal p s = .ok type ↔
    p.toUInt8 ≤ maxPrecision ∧ type = .numeric p.toUInt8 s.toUInt8 := by
  unfold decimal
  split
  · next h => simpa using fun hle => absurd h (UInt8.not_lt.mpr hle)
  · next h => simpa [UInt8.not_lt.mp h] using eq_comm

/-- Whether values of a type can be stored: a decimal has no more digits than fit, and no more of
them after the point than in all. -/
def Storable : ScalarType → Prop
  | numeric precision scale => scale.toNat ≤ precision.toNat ∧ precision ≤ maxPrecision
  | _ => True

instance : Decidable type.Storable := by
  cases type <;> unfold Storable <;> infer_instance

def name : ScalarType → String
  | integer => "integer"
  | numeric .. => "numeric"
  | char _ => "char"
  | varchar _ => "varchar"
  | timestamp => "timestamp"

def arguments : ScalarType → List Nat
  | numeric precision scale => [precision.toNat, scale.toNat]
  | char length => [length.toNat]
  | varchar length => [length.toNat]
  | _ => []

theorem storable_of_ofParts (h : ofParts given args = .ok type) : type.Storable := by
  rcases args with _ | ⟨p, _ | ⟨s, _ | ⟨r, others⟩⟩⟩
  · simp only [ofParts] at h
    split_ifs at h <;> cases h <;> trivial
  · simp only [ofParts] at h
    split_ifs at h
    · obtain ⟨le, rfl⟩ := decimal_eq_ok_iff.mp h
      exact ⟨Nat.zero_le _, le⟩
    · cases h
      trivial
    · cases h
      trivial
  · simp only [ofParts] at h
    split_ifs at h with fits
    obtain ⟨le, rfl⟩ := decimal_eq_ok_iff.mp h
    simp only [Bool.and_eq_true, decide_eq_true_eq] at fits
    refine ⟨?_, le⟩
    rw [Nat.toUInt8_eq, Nat.toUInt8_eq, UInt8.toNat_ofNat', UInt8.toNat_ofNat',
      Nat.mod_eq_of_lt fits.2, Nat.mod_eq_of_lt (Nat.lt_of_le_of_lt fits.1.2 fits.2)]
    exact fits.1.2
  · simp only [ofParts] at h
    cases h

/-- A storable type is given by the name and the arguments that it is written with. -/
theorem ofParts_name_arguments (h : type.Storable) :
    ofParts type.name type.arguments = .ok type := by
  cases type with
  | integer => decide
  | timestamp => decide
  | numeric precision scale =>
      have folded : foldCase "numeric" = "numeric" := by decide
      have bound : precision.toNat < 256 := precision.toNat_lt
      simp only [ScalarType.name, arguments, ofParts, folded, h.1, bound, decide_true,
        Bool.true_or, Bool.and_true, if_true]
      exact decimal_eq_ok_iff.mpr ⟨by simpa using h.2, by simp⟩
  | char length =>
      have folded : foldCase "char" = "char" := by decide
      have bound : length.toNat < 65536 := length.toNat_lt
      simp [ScalarType.name, arguments, ofParts, folded, bound]
  | varchar length =>
      have folded : foldCase "varchar" = "varchar" := by decide
      have bound : length.toNat < 65536 := length.toNat_lt
      simp [ScalarType.name, arguments, ofParts, folded, bound]

/-- The types that declarations can give are the storable ones. -/
theorem admitted_iff : type.Admitted ↔ type.Storable :=
  ⟨fun ⟨_, _, h⟩ => storable_of_ofParts h, fun h => ⟨_, _, ofParts_name_arguments h⟩⟩

instance : Decidable type.Admitted := decidable_of_iff _ admitted_iff.symm

/-- What is read as a type is one that a name and arguments give. -/
theorem admitted_of_read {w : String} (h : read w = .ok type) : type.Admitted := by
  unfold read at h
  split at h
  · exact ⟨_, _, h⟩
  · split at h
    · split at h
      · exact ⟨_, _, h⟩
      · cases h
    · cases h

/-! ## The text of a type -/

def argumentsText (args : List Nat) : List Char :=
  [','].intercalate (args.map (Nat.toDigits 10))

theorem trim_toDigits : trim (Nat.toDigits 10 n) = Nat.toDigits 10 n := by
  apply trim_eq_self
  · intro c hc
    exact isBlank_eq_false_of_isDigit (isDigit_of_mem_toDigits (List.mem_of_mem_head? hc))
  · intro c hc
    exact isBlank_eq_false_of_isDigit (isDigit_of_mem_toDigits (List.mem_of_mem_getLast? hc))

theorem readPiece_toDigits (h : n < bound32) :
    readCount bound32 (trim (Nat.toDigits 10 n)) = some n := by
  rw [trim_toDigits, ← toList_showNat, readCount_showNat h]

theorem readArguments_argumentsText (h : ∀ m ∈ n :: args, m < bound32) :
    readArguments (argumentsText (n :: args)) = some (n :: args) := by
  have comma : ∀ {m : Nat}, ',' ∉ Nat.toDigits 10 m := fun hm =>
    absurd (isDigit_of_mem_toDigits hm) (by decide)
  induction args generalizing n with
  | nil =>
      rw [List.forall_mem_singleton] at h
      rw [argumentsText, List.map_singleton, List.intercalate_singleton, readArguments,
        splitAt_eq_self comma, List.mapM_cons, readPiece_toDigits h]
      rfl
  | cons m args ih =>
      rw [List.forall_mem_cons] at h
      have others := ih h.2
      unfold readArguments argumentsText at others ⊢
      rw [List.map_cons, List.map_cons, List.intercalate_cons_cons, ← List.map_cons,
        List.append_assoc, List.singleton_append, splitAt_append_cons comma, List.mapM_cons,
        readPiece_toDigits h.1, others]
      rfl

theorem lt_bound32 (h : n < 65536) : n < bound32 := Nat.lt_trans h (by decide)

theorem lt_of_mem_arguments (h : n ∈ type.arguments) : n < bound32 := by
  cases type with
  | integer => cases h
  | timestamp => cases h
  | numeric precision scale =>
      have bound : precision.toNat < 65536 := Nat.lt_trans precision.toNat_lt (by decide)
      have bound' : scale.toNat < 65536 := Nat.lt_trans scale.toNat_lt (by decide)
      rcases List.mem_pair.mp h with rfl | rfl
      · exact lt_bound32 bound
      · exact lt_bound32 bound'
  | char length => exact List.mem_singleton.mp h ▸ lt_bound32 length.toNat_lt
  | varchar length => exact List.mem_singleton.mp h ▸ lt_bound32 length.toNat_lt

/-- A name with arguments in parentheses is read as what it says. -/
theorem read_partsText (opening : '(' ∉ given.toList) (blank : trim given.toList = given.toList)
    (h : ∀ m ∈ n :: args, m < bound32) :
    read (partsText given (n :: args)) = ofParts given (n :: args) := by
  have text : (partsText given (n :: args)).toList =
      given.toList ++ '(' :: (argumentsText (n :: args) ++ [')']) := by
    simp [partsText, argumentsText, toList_showNat, Function.comp_def]
  rw [read, text, splitOnce_append_cons opening]
  simp only [List.reverse_append, List.reverse_singleton, List.singleton_append,
    List.reverse_reverse, readArguments_argumentsText h, blank, String.ofList_toList]

theorem text_eq_partsText : type.text = partsText type.name type.arguments := by
  cases type <;> simp [text, ScalarType.name, arguments, partsText, String.append_assoc]

theorem name_plain : '(' ∉ type.name.toList ∧ trim type.name.toList = type.name.toList := by
  cases type <;> (rw [ScalarType.name]; decide)

/-- **A type is read as it was written**, if a declaration can give it. -/
theorem read_text (h : type.Admitted) : read type.text = .ok type := by
  have back := ofParts_name_arguments (admitted_iff.mp h)
  obtain ⟨opening, blank⟩ := @name_plain type
  have small : ∀ m ∈ type.arguments, m < bound32 := fun m => lt_of_mem_arguments
  cases type with
  | integer => decide
  | timestamp => decide
  | _ =>
      rw [text_eq_partsText]
      exact (read_partsText opening blank small).trans back

theorem isWord_text : Listing.IsWord type.text := by
  have number : ∀ {n : Nat}, Listing.IsWord (showNat n) := Listing.isWord_showNat
  cases type with
  | integer => decide
  | timestamp => decide
  | numeric precision scale =>
      exact ((((by decide : Listing.IsWord "numeric(").append number).append
        (by decide)).append number).append (by decide)
  | char length =>
      exact ((by decide : Listing.IsWord "char(").append number).append
        (by decide)
  | varchar length =>
      exact ((by decide : Listing.IsWord "varchar(").append number).append
        (by decide)

end TemporalDB.ScalarType
