import TemporalDB.Json
import TemporalDB.Json.Token

/-!
# Reading JSON

A value is read token by token. The state of the reading is what may come next and the containers
that are open around it, innermost first; nothing may follow the value. `Json.parse` reads whatever
is well formed; `Json.read` refuses what denotes nothing, and containers nested too deep.
-/

namespace TemporalDB.Json

/-- A container that is open, with what was read of it in reverse order. -/
inductive Frame where
  | array (items : List Json)
  /-- An object that waits for the value of a name, if the name denotes anything. -/
  | object (members : List (Option String × Json)) (name : Option String)

/-- What may come next. -/
inductive Reading where
  /-- A value. -/
  | value (stack : List Frame)
  /-- A value or the end of an array that has none yet. -/
  | firstItem (stack : List Frame)
  /-- A name, or the end of an object that has none yet. -/
  | firstName (stack : List Frame)
  /-- A name. -/
  | nextName (members : List (Option String × Json)) (stack : List Frame)
  /-- A colon after a name. -/
  | colon (members : List (Option String × Json)) (name : Option String) (stack : List Frame)
  /-- What goes on after a value: a comma or the end of the innermost container. -/
  | done (stack : List Frame) (j : Json)

def ofScalar : Scalar → Json
  | .null => null
  | .bool b => bool b
  | .integer n => integer n
  | .real x => real x
  | .string (some s) => string s
  | .string none | .unbounded => undenoted

def ofMembers (members : List (Option String × Json)) : Json :=
  let named (m : Option String × Json) : Option (String × Json) := m.1.map fun name => (name, m.2)
  (members.mapM named).elim undenoted object

def Reading.stepValue (stack : List Frame) : Token → Option Reading
  | .scalar s => some (.done stack (ofScalar s))
  | .leftBracket => some (.firstItem stack)
  | .leftBrace => some (.firstName stack)
  | _ => none

def Reading.step : Reading → Token → Option Reading
  | value stack, t => stepValue stack t
  | firstItem stack, .rightBracket => some (.done stack (array []))
  | firstItem stack, t => stepValue (.array [] :: stack) t
  | firstName stack, .rightBrace => some (.done stack (object []))
  | firstName stack, .scalar (.string s) => some (.colon [] s stack)
  | nextName members stack, .scalar (.string s) => some (.colon members s stack)
  | colon members name stack, .colon => some (.value (.object members name :: stack))
  | done (.array items :: stack) j, .comma => some (.value (.array (j :: items) :: stack))
  | done (.array items :: stack) j, .rightBracket =>
    some (.done stack (array (j :: items).reverse))
  | done (.object members name :: stack) j, .comma => some (.nextName ((name, j) :: members) stack)
  | done (.object members name :: stack) j, .rightBrace =>
    some (.done stack (ofMembers ((name, j) :: members).reverse))
  | _, _ => none

def ofTokens (tokens : List Token) : Option Json := do
  match ← tokens.foldlM Reading.step (.value []) with
  | .done [] j => some j
  | _ => none

def parse (s : String) : Option Json := do ofTokens (← tokens s.toList)

/-- The value that a text is, if all of it denotes something and nothing is too deep in it. -/
def read (s : String) : Option Json := (parse s).filter fun j => j.denotes && j.depth ≤ maxDepth

end TemporalDB.Json
