import TemporalDB.Encoding.Query
import TemporalDB.Json.Printer
import TemporalDB.Json.Reader
import TemporalDB.Program
import TemporalDB.Text.Utf8

/-!
# Units in JSON

The artifact of a unit is the text of its JSON form. `CompiledUnit.artifact` writes it and
`CompiledUnit.ofArtifact` reads it back; a unit of another version is refused.
-/

namespace TemporalDB

open Json

def Operand.toJson : Operand → Json
  | param i type => .object [("kind", .string "param"), ("index", count i), ("ty", type.toJson)]
  | const type v =>
    .object [("kind", .string "const"), ("ty", type.toJson), ("value", v.toJson)]

def Operand.ofJson? (j : Json) : Option Operand := do
  let (kind, parts) ← tagged "kind" ["param", "const"] j
  if kind = "param" then
    match ← fields ["index", "ty"] parts with
    | [i, type] =>
      some (param (← required (asCount Text.bound64) i) (← required (ScalarType.ofJson? true) type))
    | _ => none
  else if kind = "const" then
    match ← fields ["ty", "value"] parts with
    | [type, v] =>
      some (const (← required (ScalarType.ofJson? true) type) (← required (Value.ofJson? true) v))
    | _ => none
  else none

def Filter.toJson (f : Filter) : Json :=
  .object [("column", count f.column), ("op", .string f.op.name), ("operand", f.operand.toJson)]

def Filter.ofJson? (j : Json) : Option Filter := do
  match ← fields ["column", "op", "operand"] j with
  | [column, op, operand] =>
    some ⟨← required (asCount Text.bound64) column, ← required Comparator.ofJson? op,
      ← required Operand.ofJson? operand⟩
  | _ => none

def Access.toJson (a : Access) : Json :=
  .object [("seek", orNull (Json.list Operand.toJson) a.seek),
    ("filters", Json.list Filter.toJson a.filters)]

def Access.ofJson? (j : Json) : Option Access := do
  match ← fields ["seek", "filters"] j with
  | [seek, filters] =>
    some ⟨← optional (asList Operand.ofJson?) seek, ← required (asList Filter.ofJson?) filters⟩
  | _ => none

def setToJson (s : Nat × Operand) : Json := .array [count s.1, s.2.toJson]

def setOfJson? : Json → Option (Nat × Operand) := asPair (asCount Text.bound64) Operand.ofJson?

def Operation.toJson : Operation → Json
  | insert values => .object [("op", .string "insert"), ("values", Json.list setToJson values)]
  | update assignments access =>
    .object [("op", .string "update"), ("assignments", Json.list setToJson assignments),
      ("access", access.toJson)]
  | delete access => .object [("op", .string "delete"), ("access", access.toJson)]
  | select projection asOf access =>
    .object [("op", .string "select"), ("projection", Json.list count projection),
      ("as_of", orNull Operand.toJson asOf), ("access", access.toJson)]

def Operation.ofJson? (j : Json) : Option Operation := do
  let (kind, parts) ← tagged "op" ["insert", "update", "delete", "select"] j
  if kind = "insert" then
    match ← fields ["values"] parts with
    | [values] => some (insert (← required (asList setOfJson?) values))
    | _ => none
  else if kind = "update" then
    match ← fields ["assignments", "access"] parts with
    | [assignments, access] =>
      some (update (← required (asList setOfJson?) assignments)
        (← required Access.ofJson? access))
    | _ => none
  else if kind = "delete" then
    match ← fields ["access"] parts with
    | [access] => some (delete (← required Access.ofJson? access))
    | _ => none
  else if kind = "select" then
    match ← fields ["projection", "as_of", "access"] parts with
    | [projection, asOf, access] =>
      some (select (← required (asList (asCount Text.bound64)) projection)
        (← optional Operand.ofJson? asOf) (← required Access.ofJson? access))
    | _ => none
  else none

def Body.toJson : Body → Json
  | execute op => .object [("kind", .string "execute"), ("body", op.toJson)]
  | explain text => .object [("kind", .string "explain"), ("body", .string text)]

def Body.ofJson? (j : Json) : Option Body := do
  let (kind, content) ← adjacent true "kind" "body" j
  if kind = "execute" then (required Operation.ofJson? content).map execute
  else if kind = "explain" then (required asString content).map explain
  else none

def Program.toJson : Program → Json
  | definition schema => .object [("unit", .string "definition"), ("schema", schema.toJson)]
  | query q =>
    .object [("unit", .string "query"), ("params", count q.params), ("table", .string q.table),
      ("body", q.body.toJson)]

def Program.ofJson? (j : Json) : Option Program := do
  let (kind, parts) ← tagged "unit" [] j
  if kind = "definition" then
    match ← fields ["schema"] parts with
    | [schema] => some (definition (← required Schema.ofJson? schema))
    | _ => none
  else if kind = "query" then
    match ← fields ["params", "table", "body"] parts with
    | [params, table, body] =>
      some (query ⟨← required (asCount Text.bound64) params, ← required asString table,
        ← required Body.ofJson? body⟩)
    | _ => none
  else none

def CompiledUnit.toJson (u : CompiledUnit) : Json :=
  .object [("abi", count u.abi.toNat), ("exports", Json.list Json.string u.exports),
    ("program", u.program.toJson)]

/-- The unit that a JSON value is, of whatever version. What is beside its fields may be nested as
deep as it likes. -/
def CompiledUnit.ofJson? (j : Json) : Option CompiledUnit := do
  match ← fields ["abi", "exports", "program"] j with
  | [abi, exports, program] =>
    let program ← program.filter fun p => p.depth < maxDepth
    some ⟨(← required (asCount Text.bound32) abi).toUInt32, ← required (asList asString) exports,
      ← Program.ofJson? program⟩
  | _ => none

inductive ArtifactError where
  /-- The text is not the JSON form of a unit. -/
  | notAUnit
  /-- The unit is of another version. -/
  | version (found : UInt32)
deriving DecidableEq

def ArtifactError.message : ArtifactError → String
  | notAUnit => "unit object"
  | version found =>
    "unsupported unit ABI version " ++ Text.showNat found.toNat ++ " (expected " ++
      Text.showNat abiVersion.toNat ++ ")"

def CompiledUnit.artifact (u : CompiledUnit) : String := Json.text u.toJson

def CompiledUnit.ofArtifact (text : String) : Except ArtifactError CompiledUnit :=
  match (Json.parse text).bind CompiledUnit.ofJson? with
  | none => .error .notAUnit
  | some u => if u.abi = abiVersion then .ok u else .error (.version u.abi)

/-- What is read for a byte that is no part of a character: it may stand in a string only, and that
denotes nothing. -/
def noCharacter : List Char := " \\udc00\\udc00".toList

def CompiledUnit.ofBytes (bytes : ByteArray) : Except ArtifactError CompiledUnit :=
  match String.fromUTF8? bytes with
  | some text => ofArtifact text
  | none => ofArtifact (String.ofList (Text.readBytes noCharacter none bytes.toList))

end TemporalDB
