/-!
# Replacing parts of a text

Every occurrence of a pattern gives way to another text, from left to right; what was put in is not
looked at again.
-/

namespace TemporalDB.Text

/-- The text with every occurrence of a pattern replaced. The pattern is not empty. -/
def replace (pattern new : List Char) : List Char → List Char
  | [] => []
  | c :: rest =>
    if pattern.isPrefixOf (c :: rest) then
      new ++ replace pattern new (rest.drop (pattern.length - 1))
    else c :: replace pattern new rest
termination_by s => s.length
decreasing_by all_goals simp; try omega

end TemporalDB.Text
