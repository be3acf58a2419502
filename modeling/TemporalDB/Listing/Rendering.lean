import TemporalDB.Listing
import TemporalDB.Plan

/-!
# Writing listings

Operations and schemas are written as directives, and a query or a schema as a whole listing: a
comment that describes it, a header and a body. The same operation gives the same text every time.
-/

namespace TemporalDB.Listing

open Text

def ofOperand : Operand → List Token
  | .param i type => [.word "param", .word (showNat i), .word type.text]
  | .const type v => [.word "const", .word type.text, .quoted v.display]

def ofSet (s : Nat × Operand) : Directive :=
  ⟨"set", some (.word (showNat s.1) :: ofOperand s.2)⟩

def ofFilter (f : Filter) : Directive :=
  ⟨"filter", some (.word (showNat f.column) :: .word f.op.symbol :: ofOperand f.operand)⟩

def ofAccess (a : Access) : List Directive :=
  (a.seek.map fun key => ⟨"seek", some (key.flatMap ofOperand)⟩).toList ++ a.filters.map ofFilter

def ofOperation : Operation → List Directive
  | .insert values => ⟨"insert", none⟩ :: values.map ofSet ++ [⟨"end", none⟩]
  | .update assignments access =>
    ⟨"update", none⟩ :: assignments.map ofSet ++ ofAccess access ++ [⟨"end", none⟩]
  | .delete access => ⟨"delete", none⟩ :: ofAccess access ++ [⟨"end", none⟩]
  | .select projection asOf access =>
    [⟨"select", none⟩, ⟨"project", some (projection.map fun i => .word (showNat i))⟩] ++
      (asOf.map fun o => ⟨"asof", some (ofOperand o)⟩).toList ++ ofAccess access ++ [⟨"end", none⟩]

def operationText (op : Operation) : String := textOf (ofOperation op)

def ofColumn (c : Column) : Directive :=
  ⟨"column", some ([.quoted c.name, .word c.type.text] ++
    if c.notNull then [.word "notnull"] else [])⟩

def ofRelation (r : Relation) : List Directive :=
  ⟨"relation", some [.quoted r.name, .word (if r.temporal then "temporal" else "plain")]⟩ ::
    r.columns.map ofColumn ++
    [⟨"key", some (r.primaryKey.map fun i => .quoted ((r.columns[i]?).elim "" (·.name)))⟩,
      ⟨"end", none⟩]

structure Source where
  text : String
  /-- The listing gives a text and does not run. -/
  explain : Bool
  description : String

def ofSchema (s : Schema) : Source :=
  let description := "storage definition, " ++ showNat s.relations.length ++ " relations"
  let header : List Directive :=
    [⟨"unit", some [.word "definition"]⟩, ⟨"export", some [.word EntryPoint.makeDatabase]⟩,
      ⟨"export", some [.word EntryPoint.getSize]⟩]
  ⟨comment description ++ textOf (header ++ s.relations.flatMap ofRelation), false, description⟩

def queryHeader (params : Nat) (table : String) : List Directive :=
  [⟨"unit", some [.word "query"]⟩, ⟨"export", some [.word EntryPoint.query]⟩,
    ⟨"params", some [.word (showNat params)]⟩, ⟨"table", some [.quoted table]⟩]

/-- The listing of a query on a schema. A query to be explained carries the text of its operation
as a string. -/
def ofQuery (q : Query) (s : Schema) : Except PlanError Source := do
  match s.relation? q.statement.table with
  | none => .error (.unknownTable q.statement.table)
  | some r =>
    let op ← Plan.operationOf r q.statement
    let body :=
      if q.explain then [⟨"explain", some [.quoted (operationText op)]⟩] else ofOperation op
    .ok ⟨comment q.display ++ textOf (queryHeader q.paramCount r.name ++ body), q.explain,
      q.display⟩

end TemporalDB.Listing
