import TemporalDB.Binary64

/-!
# JSON values

A JSON value as it stands in a text: the members of an object keep their order, and a name may
occur twice. The integers of 64 bits are told apart from all other numbers, which are binary.
-/

namespace TemporalDB

inductive Json where
  | null
  | bool (b : Bool)
  /-- An integer that fits in 64 bits, with or without a sign, and is not written `-0`. -/
  | integer (n : Int)
  /-- Any other number. -/
  | real (x : Binary64)
  | string (s : String)
  /-- What is well formed and denotes nothing: a string with half of a surrogate pair, a number
  beyond all bounds, or an object in which such a string is a name. -/
  | undenoted
  | array (items : List Json)
  | object (members : List (String × Json))

namespace Json

mutual

def denotes : Json → Bool
  | undenoted => false
  | array items => denotesAll items
  | object members => denotesMembers members
  | _ => true

def denotesAll : List Json → Bool
  | [] => true
  | j :: rest => j.denotes && denotesAll rest

def denotesMembers : List (String × Json) → Bool
  | [] => true
  | (_, j) :: rest => j.denotes && denotesMembers rest

end

mutual

/-- How deep containers are nested in a value. -/
def depth : Json → Nat
  | array items => depthAll items + 1
  | object members => depthMembers members + 1
  | _ => 0

def depthAll : List Json → Nat
  | [] => 0
  | j :: rest => max j.depth (depthAll rest)

def depthMembers : List (String × Json) → Nat
  | [] => 0
  | (_, j) :: rest => max j.depth (depthMembers rest)

end

/-- The deepest nesting that is read where a value counts. -/
def maxDepth : Nat := 127

def member? (name : String) : Json → Option Json
  | object members => (members.find? fun m => m.1 = name).map (·.2)
  | _ => none

end Json

end TemporalDB
