import TemporalDB.Encoding.Schema
import TemporalDB.Proofs.Instant.Reading
import TemporalDB.Proofs.Json.Decoding
import TemporalDB.Proofs.ScalarType

/-!
# Types, values and schemas, encoded and decoded

Every type and every value comes back from its form in JSON, and so does every schema whose key
places fit 64 bits. What one level of a schema is written as is nested a level deeper than what is
inside.
-/

namespace TemporalDB

open Text Json

namespace Json

theorem asCount_byte {n : UInt8} : asCount 256 (count n.toNat) = some n.toNat :=
  asCount_count n.toNat_lt

theorem asCount_length {n : UInt16} : asCount 65536 (count n.toNat) = some n.toNat := by
  have small : n.toNat < 65536 := n.toNat_lt
  exact asCount_count small

end Json

/-! ## Types -/

namespace ScalarType

variable {inside : Bool} {type : ScalarType} {j parts : Json} {n : UInt16}

theorem plain_toJson : Plain 1 type.toJson := by
  have byte : ∀ n : UInt8, Plain 0 (count n.toNat) := fun n =>
    plain_count (Nat.lt_trans n.toNat_lt (by decide))
  have length : ∀ n : UInt16, Plain 0 (count n.toNat) := fun n =>
    plain_count (Nat.lt_trans n.toNat_lt (by decide))
  cases type with
  | integer => exact .object (by simp [Plain.string])
  | timestamp => exact .object (by simp [Plain.string])
  | numeric precision scale => exact .object (by simp [Plain.string, byte])
  | char n => exact .object (by simp [Plain.string, length])
  | varchar n => exact .object (by simp [Plain.string, length])

theorem lengthOfJson?_object (h : asCount 65536 j = some n.toNat) :
    lengthOfJson? (.object [("len", j)]) = some n := by
  have parts : fields ["len"] (.object [("len", j)]) = some [some j] := rfl
  rw [lengthOfJson?, parts]
  simp [required_some, h]

/-! A text type is decoded once its kind is told and its length is read. -/

theorem ofJson?_char (told : tagged "kind" (if inside then kinds else []) j = some ("char", parts))
    (length : lengthOfJson? parts = some n) : ofJson? inside j = some (char n) := by
  rw [ofJson?, told]
  show (lengthOfJson? parts).map char = _
  rw [length]
  rfl

theorem ofJson?_varchar
    (told : tagged "kind" (if inside then kinds else []) j = some ("varchar", parts))
    (length : lengthOfJson? parts = some n) : ofJson? inside j = some (varchar n) := by
  rw [ofJson?, told]
  show (lengthOfJson? parts).map varchar = _
  rw [length]
  rfl

def parameters : ScalarType → List (String × Json)
  | numeric precision scale =>
    [("precision", count precision.toNat), ("scale", count scale.toNat)]
  | char length => [("len", count length.toNat)]
  | varchar length => [("len", count length.toNat)]
  | _ => []

theorem tagged_toJson {kinds : List String} :
    tagged "kind" kinds type.toJson = some (type.name, .object type.parameters) := by
  have denotes : type.toJson.denotes = true := plain_toJson.denotes
  cases type <;> exact tagged_object denotes rfl rfl

/-- **Every type comes back from its form in JSON.** -/
theorem ofJson?_toJson : ofJson? inside type.toJson = some type := by
  cases type with
  | integer =>
      rw [ofJson?, tagged_toJson]
      rfl
  | timestamp =>
      rw [ofJson?, tagged_toJson]
      rfl
  | numeric precision scale =>
      have parts : fields ["precision", "scale"] (.object (numeric precision scale).parameters) =
          some [some (count precision.toNat), some (count scale.toNat)] := rfl
      rw [ofJson?, tagged_toJson]
      simp [ScalarType.name, parts, required_some, asCount_byte]
  | char n => exact ofJson?_char tagged_toJson (lengthOfJson?_object asCount_length)
  | varchar n => exact ofJson?_varchar tagged_toJson (lengthOfJson?_object asCount_length)

end ScalarType

/-! ## Values -/

namespace Value

variable {inside : Bool} {v : Value}

theorem plain_toJson : Plain 2 v.toJson := by
  have raw : ∀ n : Int64, Plain 1 (.integer n.toInt) := fun n => .integer (inRange_toInt n)
  have raw' : ∀ n : Int64, Plain 0 (.integer n.toInt) := fun n => .integer (inRange_toInt n)
  have byte : ∀ n : UInt8, Plain 0 (count n.toNat) := fun n =>
    plain_count (Nat.lt_trans n.toNat_lt (by decide))
  cases v with
  | null => exact .object (by simp [Plain.string])
  | integer n => exact .object (by simp [Plain.string, raw])
  | numeric n scale =>
      have content : Plain 1 (.object [("raw", .integer n.toInt), ("scale", count scale.toNat)]) :=
        .object (by simp [raw', byte])
      exact .object (by simp [Plain.string, content])
  | text s => exact .object (by simp [Plain.string])
  | timestamp t => exact .object (by simp [Plain.string])

/-- **Every value comes back from its form in JSON.** -/
theorem ofJson?_toJson : ofJson? inside v.toJson = some v := by
  unfold ofJson?
  cases v with
  | null => rfl
  | integer n =>
      have told : adjacent inside "kind" "value" (integer n).toJson =
          some ("integer", some (.integer n.toInt)) := rfl
      rw [told]
      simp [required_some, asInt64_toInt]
  | numeric raw scale =>
      have told : adjacent inside "kind" "value" (numeric raw scale).toJson =
          some ("numeric",
            some (.object [("raw", .integer raw.toInt), ("scale", count scale.toNat)])) := rfl
      have parts : memberFields ["raw", "scale"]
          (.object [("raw", .integer raw.toInt), ("scale", count scale.toNat)]) =
            some [some (.integer raw.toInt), some (count scale.toNat)] := rfl
      rw [told]
      simp [required_some, parts, asInt64_toInt, asCount_byte]
  | text s => rfl
  | timestamp t =>
      have told : adjacent inside "kind" "value" (timestamp t).toJson =
          some ("timestamp", some (.string t.zuluText)) := rfl
      rw [told]
      simp [required_some, asString, Instant.readRelaxed_zuluText]

end Value

/-! ## Schemas -/

namespace Column

variable {c : Column}

theorem plain_toJson : Plain 2 c.toJson :=
  .object (by simp [Plain.string, Plain.bool, ScalarType.plain_toJson])

theorem ofJson?_toJson : Column.ofJson? c.toJson = some c := by
  have parts : fields ["name", "ty", "not_null"] c.toJson =
      some [some (.string c.name), some c.type.toJson, some (.bool c.notNull)] := rfl
  rw [Column.ofJson?, parts]
  simp [required_some, asString, asBool, ScalarType.ofJson?_toJson]

end Column

def Relation.Fits (r : Relation) : Prop := ∀ i ∈ r.primaryKey, i < bound64

namespace Relation

variable {r : Relation}

theorem plain_toJson (h : r.Fits) : Plain 4 r.toJson := by
  have columns : Plain 3 (Json.list Column.toJson r.columns) :=
    plain_list fun _ _ => Column.plain_toJson
  have key : Plain 3 (Json.list count r.primaryKey) := plain_list fun i hi => plain_count (h i hi)
  exact .object (by simp [Plain.string, Plain.bool, columns, key])

theorem ofJson?_toJson (h : r.Fits) : Relation.ofJson? r.toJson = some r := by
  have parts : fields ["name", "columns", "primary_key", "temporal"] r.toJson =
      some [some (.string r.name), some (Json.list Column.toJson r.columns),
        some (Json.list count r.primaryKey), some (.bool r.temporal)] := rfl
  have columns : asList Column.ofJson? (Json.list Column.toJson r.columns) = some r.columns :=
    asList_list fun _ _ => Column.ofJson?_toJson
  have key : asList (asCount bound64) (Json.list count r.primaryKey) = some r.primaryKey :=
    asList_list fun i hi => asCount_count (h i hi)
  rw [Relation.ofJson?, parts]
  simp [required_some, asString, asBool, columns, key]

end Relation

def Schema.Fits (s : Schema) : Prop := ∀ r ∈ s.relations, r.Fits

namespace Schema

variable {s : Schema}

theorem plain_toJson (h : s.Fits) : Plain 6 s.toJson := by
  have relations : Plain 5 (Json.list Relation.toJson s.relations) :=
    plain_list fun r hr => Relation.plain_toJson (h r hr)
  exact .object (by simp [relations])

/-- **A schema comes back from its form in JSON.** -/
theorem ofJson?_toJson (h : s.Fits) : Schema.ofJson? s.toJson = some s := by
  have parts : fields ["relations"] s.toJson =
      some [some (Json.list Relation.toJson s.relations)] := rfl
  have relations : asList Relation.ofJson? (Json.list Relation.toJson s.relations) =
      some s.relations := asList_list fun r hr => Relation.ofJson?_toJson (h r hr)
  rw [Schema.ofJson?, parts]
  simp [required_some, relations]

end Schema

end TemporalDB
