/-!
# Names without regard to case

Keywords and the names of tables, columns and types are compared without regard to the case of
the ASCII letters. Every other character counts as it is.
-/

namespace TemporalDB.Text

def foldCase (s : String) : String := String.ofList (s.toList.map Char.toLower)

/-- Whether two names are the same but for the case of ASCII letters. -/
def sameName (a b : String) : Bool := foldCase a = foldCase b

end TemporalDB.Text
