import TemporalDB.Value

/-!
# The order of values

The order of values is total, and only equal values have the same place in it; the same holds of
keys, which are compared column by column.
-/

namespace TemporalDB

theorem Instant.ticks_injective {a b : Instant} (h : a.ticks = b.ticks) : a = b := by
  obtain ⟨s, n, h₁, h₂, h₃, h₄⟩ := a
  obtain ⟨t, m, k₁, k₂, k₃, k₄⟩ := b
  simp only [Instant.ticks, nanosPerSecond] at h h₃ k₃
  have hs : s = t := by omega
  subst hs
  have hn : n = m := by omega
  subst hn
  rfl

namespace Value

instance : Std.TransOrd Value :=
  inferInstanceAs (Std.TransCmp (compareLex (compareOn rank)
    (compareLex (compareOn measure) (compareLex (compareOn scale) (compareOn characters)))))

theorem eq_of_parts {a b : Value} (h₁ : a.rank = b.rank) (h₂ : a.measure = b.measure)
    (h₃ : a.scale = b.scale) (h₄ : a.characters = b.characters) : a = b := by
  cases a <;> cases b <;> first
    | rfl
    | exact congrArg integer (Int64.toInt_inj.1 h₂)
    | exact congr (congrArg numeric (Int64.toInt_inj.1 h₂)) (UInt8.toNat_inj.1 h₃)
    | exact congrArg text h₄
    | exact congrArg timestamp (Instant.ticks_injective h₂)
    | simp [rank] at h₁

instance : Std.LawfulEqOrd Value where
  compare_self := Std.ReflCmp.compare_self
  eq_of_compare {a b} h := by
    have h : (compareLex (compareOn rank) (compareLex (compareOn measure)
      (compareLex (compareOn scale) (compareOn characters)))) a b = .eq := h
    simp only [compareLex, compareOn, Ordering.then_eq_eq, Std.LawfulEqCmp.compare_eq_iff_eq] at h
    exact eq_of_parts h.1 h.2.1 h.2.2.1 h.2.2.2

end Value

end TemporalDB
