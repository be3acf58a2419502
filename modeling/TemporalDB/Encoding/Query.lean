import TemporalDB.Encoding.Schema
import TemporalDB.Query

/-!
# Queries in JSON

A query has a form in JSON with its statement, its values and its comparisons as records and
variants.
-/

namespace TemporalDB

open Json

def Literal.toJson : Literal → Json
  | number t => .object [("kind", .string "number"), ("text", .string t)]
  | string t => .object [("kind", .string "string"), ("text", .string t)]

def Literal.ofJson? (j : Json) : Option Literal := do
  let (kind, content) ← adjacent true "kind" "text" j
  if kind = "number" then (required asString content).map number
  else if kind = "string" then (required asString content).map string
  else none

def Expr.toJson : Expr → Json
  | param i => .object [("kind", .string "param"), ("value", count i)]
  | literal l => .object [("kind", .string "literal"), ("value", l.toJson)]

def Expr.ofJson? (j : Json) : Option Expr := do
  let (kind, content) ← adjacent true "kind" "value" j
  if kind = "param" then (required (asCount Text.bound64) content).map param
  else if kind = "literal" then (required Literal.ofJson? content).map literal
  else none

def Comparator.name : Comparator → String
  | eq => "eq"
  | notEq => "not_eq"
  | lt => "lt"
  | ltEq => "lt_eq"
  | gt => "gt"
  | gtEq => "gt_eq"

def Comparator.all : List Comparator := [eq, notEq, lt, ltEq, gt, gtEq]

def Comparator.ofJson? (j : Json) : Option Comparator := do
  let name ← loneName true j
  all.find? fun op => op.name = name

def Comparison.toJson (c : Comparison) : Json :=
  .object [("column", .string c.column), ("op", .string c.op.name), ("value", c.value.toJson)]

def Comparison.ofJson? (j : Json) : Option Comparison := do
  match ← fields ["column", "op", "value"] j with
  | [column, op, value] =>
    some ⟨← required asString column, ← required Comparator.ofJson? op,
      ← required Expr.ofJson? value⟩
  | _ => none

def Assignment.toJson (a : Assignment) : Json :=
  .object [("column", .string a.column), ("value", a.value.toJson)]

def Assignment.ofJson? (j : Json) : Option Assignment := do
  match ← fields ["column", "value"] j with
  | [column, value] => some ⟨← required asString column, ← required Expr.ofJson? value⟩
  | _ => none

def Projection.toJson : Projection → Json
  | all => .object [("kind", .string "all")]
  | columns names =>
    .object [("kind", .string "columns"), ("columns", Json.list Json.string names)]

def Projection.ofJson? (j : Json) : Option Projection := do
  let (kind, content) ← adjacent true "kind" "columns" j
  if kind = "all" then
    match content with
    | none | some .null => some all
    | _ => none
  else if kind = "columns" then (required (asList asString) content).map columns
  else none

def Json.orNull {α : Type} (encode : α → Json) (item : Option α) : Json := item.elim .null encode

def Statement.toJson : Statement → Json
  | insert table columns values =>
    .object [("kind", .string "insert"), ("table", .string table),
      ("columns", orNull (Json.list Json.string) columns), ("values", Json.list Expr.toJson values)]
  | update table assignments condition =>
    .object [("kind", .string "update"), ("table", .string table),
      ("assignments", Json.list Assignment.toJson assignments),
      ("predicate", Json.list Comparison.toJson condition)]
  | delete table condition =>
    .object [("kind", .string "delete"), ("table", .string table),
      ("predicate", Json.list Comparison.toJson condition)]
  | select table projection asOf condition =>
    .object [("kind", .string "select"), ("table", .string table),
      ("projection", projection.toJson), ("as_of", orNull Expr.toJson asOf),
      ("predicate", Json.list Comparison.toJson condition)]

def Statement.ofJson? (j : Json) : Option Statement := do
  let (kind, parts) ← tagged "kind" [] j
  if kind = "insert" then
    match ← fields ["table", "columns", "values"] parts with
    | [table, columns, values] =>
      some (insert (← required asString table) (← optional (asList asString) columns)
        (← required (asList Expr.ofJson?) values))
    | _ => none
  else if kind = "update" then
    match ← fields ["table", "assignments", "predicate"] parts with
    | [table, assignments, condition] =>
      some (update (← required asString table)
        (← required (asList Assignment.ofJson?) assignments)
        (← required (asList Comparison.ofJson?) condition))
    | _ => none
  else if kind = "delete" then
    match ← fields ["table", "predicate"] parts with
    | [table, condition] =>
      some (delete (← required asString table)
        (← required (asList Comparison.ofJson?) condition))
    | _ => none
  else if kind = "select" then
    match ← fields ["table", "projection", "as_of", "predicate"] parts with
    | [table, projection, asOf, condition] =>
      some (select (← required asString table) (← required Projection.ofJson? projection)
        (← optional Expr.ofJson? asOf) (← required (asList Comparison.ofJson?) condition))
    | _ => none
  else none

def Query.toJson (q : Query) : Json :=
  .object [("statement", q.statement.toJson), ("explain", .bool q.explain)]

def Query.ofJson? (j : Json) : Option Query := do
  match ← fields ["statement", "explain"] j with
  | [statement, explain] =>
    some ⟨← required Statement.ofJson? statement, ← required asBool explain⟩
  | _ => none

end TemporalDB
