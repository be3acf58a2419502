import TemporalDB.Configuration
import TemporalDB.Encoding.Query

/-!
# Configurations in JSON

What a configuration does not say is as by default; what it says twice or says with null is refused.
-/

namespace TemporalDB

open Json

def Toolchain.toJson : Toolchain → Json
  | inProcess => .object [("kind", .string "in_process")]
  | command program args =>
    .object [("kind", .string "command"), ("program", .string program),
      ("args", Json.list Json.string args)]

def Toolchain.ofJson? (j : Json) : Option Toolchain := do
  let (kind, parts) ← tagged "kind" [] j
  if kind = "in_process" then some inProcess
  else if kind = "command" then
    match ← fields ["program", "args"] parts with
    | [program, args] =>
      some (command (← required asString program) (← required (asList asString) args))
    | _ => none
  else none

def Configuration.toJson (c : Configuration) : Json :=
  .object [("work_dir", .string c.workDir.text), ("table_dir", .string c.tableDir.text),
    ("definition_name", .string c.definitionName), ("keep_units_open", .bool c.keepUnitsOpen),
    ("toolchain", c.toolchain.toJson)]

/-- An item, or what stands in for one that is missing. -/
def Json.defaulting {α : Type} (decode : Json → Option α) (default : α) :
    Option Json → Option α
  | none => some default
  | some j => decode j

/-- The fields of a record in which an array may stop early. -/
def Json.leadingFields (names : List String) : Json → Option (List (Option Json))
  | .array items =>
    if items.length ≤ names.length then
      some (items.map some ++ List.replicate (names.length - items.length) none)
    else none
  | j => fields names j

def Configuration.ofJson? (j : Json) : Option Configuration := do
  let d := Configuration.default
  let names := ["work_dir", "table_dir", "definition_name", "keep_units_open", "toolchain"]
  match ← leadingFields names j with
  | [workDir, tableDir, name, keep, toolchain] =>
    some ⟨⟨← defaulting asString d.workDir.text workDir⟩,
      ⟨← defaulting asString d.tableDir.text tableDir⟩, ← defaulting asString d.definitionName name,
      ← defaulting asBool d.keepUnitsOpen keep,
      ← defaulting Toolchain.ofJson? d.toolchain toolchain⟩
  | _ => none

end TemporalDB
