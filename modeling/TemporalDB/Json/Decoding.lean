import TemporalDB.Json

/-!
# Taking JSON values apart

A record is an object that has each of its fields once; members of other names do not count, and
the fields may also be listed in an array in their order. A variant is a record that says of what
kind it is, either among its fields or beside its content.
-/

namespace TemporalDB.Json

/-- The one member of a name. There may be none: `some none`; there may not be two: `none`. -/
def uniqueMember (name : String) : List (String × Json) → Option (Option Json)
  | [] => some none
  | (n, j) :: rest =>
    if n = name then
      if rest.any fun m => m.1 = name then none else some (some j)
    else uniqueMember name rest

/-- The fields of a record, each if it is there. In an array all must be there. -/
def fields (names : List String) : Json → Option (List (Option Json))
  | object members => names.mapM fun name => uniqueMember name members
  | array items => if items.length = names.length then some (items.map some) else none
  | _ => none

/-- The fields of a record that is not listed in an array. -/
def memberFields (names : List String) : Json → Option (List (Option Json))
  | object members => fields names (object members)
  | _ => none

/-- The name that stands for itself: as a string, or as the one name in an object, with nothing as
its value. Inside of a variant an empty object is nothing, too. -/
def loneName (inside : Bool) : Json → Option String
  | string name => some name
  | object [(name, null)] => some name
  | object [(name, object [])] => if inside then some name else none
  | _ => none

/-- The kind that a tag tells: by its name, or by its place among the kinds that have one. -/
def kindOf (kinds : List String) : Json → Option String
  | string kind => some kind
  | integer n => if 0 ≤ n then kinds[n.toNat]? else none
  | _ => none

/-- The kind of a variant that is told among its fields, and the other fields. Every scalar in it
must denote something. A kind may be told by its place only inside of another variant, where `kinds`
lists them; elsewhere it is empty. -/
def tagged (tag : String) (kinds : List String) (j : Json) : Option (String × Json) :=
  if !j.denotes then none
  else match j with
    | object members => do
      let kind ← kindOf kinds (← (← uniqueMember tag members))
      some (kind, object (members.filter fun m => m.1 ≠ tag))
    | array (first :: items) => (kindOf kinds first).map fun kind => (kind, array items)
    | _ => none

/-- The kind of a variant that is told beside its content, and the content, if it is there. The
variant may stand inside of another one. -/
def adjacent (inside : Bool) (tag content : String) (j : Json) :
    Option (String × Option Json) := do
  match ← fields [tag, content] j with
  | [some name, c] =>
    let kind ← loneName inside name
    let contentFirst := match j with
      | object members => (members.find? fun m => m.1 = tag || m.1 = content).any (·.1 = content)
      | _ => false
    if contentFirst && !(c.all denotes) then none else some (kind, c)
  | _ => none

/-- An item that must be there. -/
def required {α : Type} (decode : Json → Option α) : Option Json → Option α
  | some j => decode j
  | none => none

/-- An item that may be missing or null. -/
def optional {α : Type} (decode : Json → Option α) : Option Json → Option (Option α)
  | none => some none
  | some null => some none
  | some j => (decode j).map some

def asString : Json → Option String
  | string s => some s
  | _ => none

def asBool : Json → Option Bool
  | bool b => some b
  | _ => none

/-- A count below a bound. -/
def asCount (bound : Nat) : Json → Option Nat
  | integer n => if 0 ≤ n && n < bound then some n.toNat else none
  | _ => none

def asInt64 : Json → Option Int64
  | integer n =>
    if Int64.minValue.toInt ≤ n && n ≤ Int64.maxValue.toInt then some (Int64.ofInt n) else none
  | _ => none

def asList {α : Type} (decode : Json → Option α) : Json → Option (List α)
  | array items => items.mapM decode
  | _ => none

/-- A pair: an array of exactly two. -/
def asPair {α β : Type} (first : Json → Option α) (second : Json → Option β) :
    Json → Option (α × β)
  | array [a, b] => do some (← first a, ← second b)
  | _ => none

end TemporalDB.Json
