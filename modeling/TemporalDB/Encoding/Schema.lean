import TemporalDB.Json.Decoding
import TemporalDB.Schema

/-!
# Types, values and schemas in JSON

Every type, value, column, relation and schema has a form in JSON, which is read back by the
function of the same name that ends in a question mark.
-/

namespace TemporalDB

open Json

def Json.count (n : Nat) : Json := .integer n

def Json.list {α : Type} (encode : α → Json) (items : List α) : Json := .array (items.map encode)

namespace ScalarType

/-- A type in JSON: its kind, and its parameters beside it. -/
def toJson : ScalarType → Json
  | integer => .object [("kind", .string "integer")]
  | numeric precision scale =>
    .object [("kind", .string "numeric"), ("precision", count precision.toNat),
      ("scale", count scale.toNat)]
  | char length => .object [("kind", .string "char"), ("len", count length.toNat)]
  | varchar length => .object [("kind", .string "varchar"), ("len", count length.toNat)]
  | timestamp => .object [("kind", .string "timestamp")]

/-- Whether what is beside a kind may stand beside a kind without parameters. -/
def noParameters : Json → Bool
  | .object _ => true
  | .array items => items.isEmpty
  | _ => false

def lengthOfJson? (j : Json) : Option UInt16 := do
  match ← fields ["len"] j with
  | [n] => (← required (asCount 65536) n).toUInt16
  | _ => none

def kinds : List String := ["integer", "numeric", "char", "varchar", "timestamp"]

/-- The type that a JSON value is. Only inside of a variant may its kind be told by its place. -/
def ofJson? (inside : Bool) (j : Json) : Option ScalarType := do
  let (kind, parameters) ← tagged "kind" (if inside then kinds else []) j
  if kind = "integer" then if noParameters parameters then some integer else none
  else if kind = "timestamp" then if noParameters parameters then some timestamp else none
  else if kind = "numeric" then
    match ← fields ["precision", "scale"] parameters with
    | [precision, scale] =>
      let precision ← required (asCount 256) precision
      let scale ← required (asCount 256) scale
      some (numeric precision.toUInt8 scale.toUInt8)
    | _ => none
  else if kind = "char" then (lengthOfJson? parameters).map char
  else if kind = "varchar" then (lengthOfJson? parameters).map varchar
  else none

end ScalarType

namespace Value

def toJson : Value → Json
  | null => .object [("kind", .string "null")]
  | integer n => .object [("kind", .string "integer"), ("value", .integer n.toInt)]
  | numeric raw scale =>
    .object [("kind", .string "numeric"),
      ("value", .object [("raw", .integer raw.toInt), ("scale", count scale.toNat)])]
  | text s => .object [("kind", .string "text"), ("value", .string s)]
  | timestamp t => .object [("kind", .string "timestamp"), ("value", .string t.zuluText)]

/-- The value that a JSON value is, which may stand inside of a variant. Instants may be written in
the relaxed form. -/
def ofJson? (inside : Bool) (j : Json) : Option Value := do
  let (kind, content) ← adjacent inside "kind" "value" j
  if kind = "null" then
    match content with
    | none | some .null => some null
    | _ => none
  else if kind = "integer" then (required asInt64 content).map integer
  else if kind = "numeric" then
    match ← required (memberFields ["raw", "scale"]) content with
    | [raw, scale] =>
      let raw ← required asInt64 raw
      let scale ← required (asCount 256) scale
      some (numeric raw scale.toUInt8)
    | _ => none
  else if kind = "text" then (required asString content).map text
  else if kind = "timestamp" then do
    let s ← required asString content
    (Instant.readRelaxed s.toList).map timestamp
  else none

end Value

def Row.toJson (row : Row) : Json := Json.list Value.toJson row

def Column.toJson (c : Column) : Json :=
  .object [("name", .string c.name), ("ty", c.type.toJson), ("not_null", .bool c.notNull)]

def Column.ofJson? (j : Json) : Option Column := do
  match ← fields ["name", "ty", "not_null"] j with
  | [name, type, notNull] =>
    some ⟨← required asString name, ← required (ScalarType.ofJson? true) type,
      ← required asBool notNull⟩
  | _ => none

def Relation.toJson (r : Relation) : Json :=
  .object [("name", .string r.name), ("columns", Json.list Column.toJson r.columns),
    ("primary_key", Json.list count r.primaryKey), ("temporal", .bool r.temporal)]

def Relation.ofJson? (j : Json) : Option Relation := do
  match ← fields ["name", "columns", "primary_key", "temporal"] j with
  | [name, columns, key, temporal] =>
    some ⟨← required asString name, ← required (asList Column.ofJson?) columns,
      ← required (asList (asCount Text.bound64)) key, ← required asBool temporal⟩
  | _ => none

def Schema.toJson (s : Schema) : Json :=
  .object [("relations", Json.list Relation.toJson s.relations)]

def Schema.ofJson? (j : Json) : Option Schema := do
  match ← fields ["relations"] j with
  | [relations] => some ⟨← required (asList Relation.ofJson?) relations⟩
  | _ => none

end TemporalDB
