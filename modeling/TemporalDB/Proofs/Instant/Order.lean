import Mathlib.Order.Defs.LinearOrder
import TemporalDB.Value.Order

/-!
# The order of instants

Instants are ordered by their place in time, and no two have the same place, so the order is
linear. The later of two instants is their maximum in it.
-/

namespace TemporalDB.Instant

instance : Min Instant := ⟨fun a b => if a ≤ b then a else b⟩

instance : LinearOrder Instant where
  le_refl a := Int.le_refl a.ticks
  le_trans _ _ _ := Int.le_trans
  le_antisymm a b hab hba := ticks_injective (Int.le_antisymm hab hba)
  le_total a b := Int.le_total a.ticks b.ticks
  lt_iff_le_not_ge _ _ := Int.lt_iff_le_and_not_ge
  toDecidableLE := inferInstance
  toDecidableLT := inferInstance
  toDecidableEq := inferInstance
  compare_eq_compareOfLessAndEq a b := by
    have same : a = b ↔ a.ticks = b.ticks := ⟨congrArg ticks, ticks_injective⟩
    change compareOfLessAndEq a.ticks b.ticks = compareOfLessAndEq a b
    unfold compareOfLessAndEq
    simp only [same]
    rfl

end TemporalDB.Instant
