/-!
# Sets of characters

A character class is a table of ranges of code points in ascending order, so that looking a
character up may stop at the first range that begins above it.
-/

namespace TemporalDB.Text

/-- Inclusive ranges of code points, ascending and apart from each other. -/
abbrev CharSet := List (Nat × Nat)

def CharSet.holds : CharSet → Nat → Bool
  | [], _ => false
  | (lo, hi) :: rest, n => lo ≤ n && (n ≤ hi || CharSet.holds rest n)

def CharSet.contains (s : CharSet) (c : Char) : Bool := s.holds c.toNat

end TemporalDB.Text
