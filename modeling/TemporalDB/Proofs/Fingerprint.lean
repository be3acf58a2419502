import Mathlib.Data.List.Basic
import TemporalDB.Fingerprint

/-!
# Names of queries

A query is built under a name of seventy digits and letters, so every directory can hold a file of
that name, and queries of other fingerprints have other names.
-/

namespace TemporalDB

def isNameChar (c : Char) : Bool := c ≠ '/' && c ≠ '\x00' && c.utf8Size = 1

namespace Sha256

theorem length_hexOf (w : UInt32) : (hexOf w).length = 8 := List.length_map _

theorem isNameChar_hexOf (w : UInt32) : (hexOf w).all isNameChar = true := by
  have digit : ∀ n < 16, isNameChar (Nat.digitChar n) = true := by decide
  rw [List.all_eq_true]
  intro c hc
  obtain ⟨shift, -, rfl⟩ := List.mem_map.mp hc
  apply digit
  rw [UInt32.toNat_and]
  exact Nat.and_lt_two_pow _ (by decide : (15 : UInt32).toNat < 2 ^ 4)

theorem length_digest (message : List UInt8) : (digest message).length = 64 := by
  unfold digest
  rw [List.length_flatMap]
  simp only [List.map_cons, List.map_nil, length_hexOf]
  rfl

theorem isNameChar_digest (message : List UInt8) : (digest message).all isNameChar = true := by
  unfold digest
  rw [List.all_flatMap, List.all_eq_true]
  intro w _
  exact isNameChar_hexOf w

end Sha256

/-- Characters of one byte each take as many bytes as there are. -/
theorem utf8ByteSize_of_isNameChar {s : String} (h : s.toList.all isNameChar = true) :
    s.utf8ByteSize = s.toList.length := by
  have size : ∀ l : List Char, l.all isNameChar = true → (String.ofList l).utf8ByteSize = l.length := by
    intro l hl
    induction l with
    | nil => rfl
    | cons c l ih =>
        rw [List.all_cons, Bool.and_eq_true] at hl
        have one : c.utf8Size = 1 := by
          have byte := hl.1
          simp only [isNameChar, Bool.and_eq_true, decide_eq_true_eq] at byte
          exact byte.2
        rw [String.ofList_cons, String.utf8ByteSize_append, String.utf8ByteSize_singleton, one, ih hl.2,
          List.length_cons, Nat.add_comm]
  rw [← size s.toList h, String.ofList_toList]

namespace Fingerprint

variable {f g : Fingerprint} {text ending : String}

theorem toList_artifactName : (of text).artifactName.toList =
    "query_".toList ++ Sha256.digest text.toUTF8.toList := by
  unfold artifactName of
  rw [String.toList_append, @String.toList_ofList (Sha256.digest _)]

theorem artifactName_injective (h : f.artifactName = g.artifactName) : f = g := by
  obtain ⟨hex⟩ := f
  obtain ⟨hex'⟩ := g
  unfold artifactName at h
  have same : hex = hex' := by
    rw [← String.toList_inj, String.toList_append, String.toList_append] at h
    exact String.toList_inj.mp (List.append_cancel_left h)
  rw [same]

theorem isNameChar_artifactName (text : String) :
    (of text).artifactName.toList.all isNameChar = true := by
  rw [toList_artifactName, List.all_append, Sha256.isNameChar_digest]
  decide

theorem length_artifactName (text : String) : (of text).artifactName.toList.length = 70 := by
  rw [toList_artifactName, List.length_append, Sha256.length_digest]
  rfl

end Fingerprint

end TemporalDB
