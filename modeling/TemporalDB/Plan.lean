import TemporalDB.Program

/-!
# Planning

A statement is planned against the relation of its table: names become places, literals become
values of their columns' types, and a condition that fixes every column of the key becomes a seek.
What does not fit the relation is refused here.
-/

namespace TemporalDB

open Text

/-- Why a statement does not fit a schema. -/
inductive PlanError where
  | unknownTable (table : String)
  | unknownColumn (table column : String)
  | duplicateColumn (table column : String)
  /-- An update assigns a column of the key. -/
  | keyAssignment (table column : String)
  /-- An insertion leaves out a column of the key. -/
  | missingKeyColumn (table column : String)
  | insertArity (table : String) (expected found : Nat)
  | literal (column : String) (cause : ScalarError)
deriving DecidableEq

def PlanError.message : PlanError → String
  | unknownTable table => "unknown table " ++ quoted table
  | unknownColumn table column => "unknown column " ++ quoted column ++ " in " ++ quoted table
  | duplicateColumn table column =>
    "column " ++ quoted column ++ " of " ++ quoted table ++ " is named more than once"
  | keyAssignment table column =>
    "primary key column " ++ quoted column ++ " of " ++ quoted table ++ " cannot be assigned"
  | missingKeyColumn table column =>
    "INSERT into " ++ quoted table ++ " omits primary key column " ++ quoted column
  | insertArity table expected found =>
    "INSERT into " ++ quoted table ++ " expects " ++ showNat expected ++ " values, got " ++
      showNat found
  | literal column cause => "literal for " ++ quoted column ++ ": " ++ cause.message

namespace Plan

def columnOf (r : Relation) (name : String) : Except PlanError (Nat × Column) :=
  match r.columnIndex? name, r.column? name with
  | some i, some c => .ok (i, c)
  | _, _ => .error (.unknownColumn r.name name)

/-- A value of a type: a parameter stays open, a literal is read now. -/
def operandOf (type : ScalarType) (column : String) : Expr → Except PlanError Operand
  | .param i => .ok (.param i type)
  | .literal l =>
    match type.readValue l.text with
    | .ok v => .ok (.const type v)
    | .error e => .error (.literal column e)

/-- The assignments of an update after those in `done`. No column is assigned twice, and none of
the key at all. -/
def assignmentsOf (r : Relation) (done : List (Nat × Operand)) :
    List Assignment → Except PlanError (List (Nat × Operand))
  | [] => .ok done
  | a :: rest => do
    let (i, c) ← columnOf r a.column
    if r.isKeyColumn i then .error (.keyAssignment r.name a.column)
    else if done.any fun d => d.1 = i then .error (.duplicateColumn r.name a.column)
    else
      let operand ← operandOf c.type c.name a.value
      assignmentsOf r (done ++ [(i, operand)]) rest

/-- The values of an insertion after those in `done`. No column is named twice. -/
def valuesOf (r : Relation) (done : List (Nat × Operand)) :
    List ((Nat × Column) × Expr) → Except PlanError (List (Nat × Operand))
  | [] => .ok done
  | ((i, c), value) :: rest => do
    if done.any fun d => d.1 = i then .error (.duplicateColumn r.name c.name)
    else
      let operand ← operandOf c.type c.name value
      valuesOf r (done ++ [(i, operand)]) rest

def filterOf (r : Relation) (c : Comparison) : Except PlanError Filter := do
  let (i, column) ← columnOf r c.column
  .ok ⟨i, c.op, ← operandOf column.type column.name c.value⟩

/-- For every column of a key the place of the first filter that fixes it, if all of them are
fixed. -/
def pins (key : List Nat) (filters : List Filter) : Option (List Nat) :=
  key.mapM fun k => filters.findIdx? fun f => f.column = k && f.op = .eq

/-- A condition as filters, those that fix the key turned into a seek if they fix all of it. -/
def accessOf (r : Relation) (condition : List Comparison) : Except PlanError Access := do
  let filters ← condition.mapM (filterOf r)
  if r.primaryKey.isEmpty then .ok ⟨none, filters⟩
  else match pins r.primaryKey filters with
    | none => .ok ⟨none, filters⟩
    | some places =>
      let others := filters.zipIdx.filter fun (_, i) => !places.contains i
      .ok ⟨some (places.filterMap fun i => filters[i]?.map (·.operand)), others.map (·.1)⟩

/-- An insertion. Every column of the key must be given. -/
def insertOf (r : Relation) (columns : Option (List String)) (values : List Expr) :
    Except PlanError Operation := do
  let targets ← match columns with
    | some names => names.mapM (columnOf r)
    | none => .ok (r.columns.zipIdx.map fun (c, i) => (i, c))
  if targets.length ≠ values.length then
    .error (.insertArity r.name targets.length values.length)
  else
    let resolved ← valuesOf r [] (targets.zip values)
    match r.primaryKey.find? fun k => !targets.any fun t => t.1 = k with
    | some missing =>
      .error (.missingKeyColumn r.name ((r.columns[missing]?).elim "" (·.name)))
    | none => .ok (.insert resolved)

def operationOf (r : Relation) : Statement → Except PlanError Operation
  | .insert _ columns values => insertOf r columns values
  | .update _ assignments condition => do
    let assignments ← assignmentsOf r [] assignments
    .ok (.update assignments (← accessOf r condition))
  | .delete _ condition => do .ok (.delete (← accessOf r condition))
  | .select _ projection asOf condition => do
    let projection ← match projection with
      | .all => .ok (List.range r.arity)
      | .columns names => names.mapM fun name => do .ok (← columnOf r name).1
    let asOf ← asOf.mapM (operandOf .timestamp "AS OF")
    .ok (.select projection asOf (← accessOf r condition))

end Plan

end TemporalDB
