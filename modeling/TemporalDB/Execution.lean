import TemporalDB.Database
import TemporalDB.Listing.Rendering

/-!
# Running queries

The program of a query runs on a database with parameters and gives an output. Parameters are read
as values of the types that the program asks for, rows are found by seek or scan and by filters,
and what is written happens at one instant. Rows are read and written at places; the functions of
`Bounded` say which places must be there.
-/

namespace TemporalDB

open Text

inductive ExecError where
  | missingParam (index supplied : Nat)
  | param (index : Nat) (cause : ScalarError)
  | columnIndex (table : String) (index : Nat)
  | seekArity (table : String) (expected found : Nat)
  /-- The rows are asked for as of something that is not an instant. -/
  | asOf (value : Value)
  | storage (cause : StorageError)
deriving DecidableEq

def ExecError.message : ExecError → String
  | missingParam index supplied =>
    "parameter " ++ showNat index ++ " missing: " ++ showNat supplied ++ " supplied"
  | param index cause => "parameter " ++ showNat index ++ ": " ++ cause.message
  | columnIndex table index => "column #" ++ showNat index ++ " out of range for " ++ quoted table
  | seekArity table expected found =>
    "seek on " ++ quoted table ++ " supplies " ++ showNat found ++ " key values, key has " ++
      showNat expected
  | asOf value => "AS OF operand is not a timestamp: " ++ value.display
  | storage cause => cause.message

inductive QueryOutput where
  /-- The number of rows written. -/
  | affected (n : Nat)
  | resultSet (columns : List String) (rows : List Row)
  /-- What the query would do. -/
  | explained (text : String)
deriving DecidableEq

def barSeparated (fields : List String) : String := String.intercalate "|" fields ++ "\n"

def QueryOutput.display : QueryOutput → String
  | affected n => showNat n ++ " row(s) affected\n"
  | resultSet columns rows =>
    barSeparated columns ++ String.join (rows.map fun row => barSeparated (row.map Value.display))
  | explained text => text

namespace Execution

def bindValue (params : List String) : Operand → Except ExecError Value
  | .const _ v => .ok v
  | .param i type =>
    match params[i]? with
    | none => .error (.missingParam i params.length)
    | some s => (type.readValue s).mapError (.param i)

def bindInstant (params : List String) (o : Operand) : Except ExecError Instant := do
  match ← bindValue params o with
  | .timestamp t => .ok t
  | v => .error (.asOf v)

structure Test where
  column : Nat
  op : Comparator
  value : Value

/-- Whether two values meet a comparison. Null meets none. -/
def compares (a : Value) (op : Comparator) (b : Value) : Bool :=
  a ≠ .null && b ≠ .null && op.accepts (compare a b)

/-- A filter with its value. Its column must be one of the table. -/
def bindFilter (t : Table) (params : List String) (f : Filter) : Except ExecError Test :=
  if t.relation.arity ≤ f.column then .error (.columnIndex t.relation.name f.column)
  else do .ok ⟨f.column, f.op, ← bindValue params f.operand⟩

/-- The rows among which a query looks: the row of a key, or all of them. -/
def candidates (t : Table) (params : List String) (asOf : Option Instant) :
    Option (List Operand) → Except ExecError (List Row)
  | none => .ok (t.scan asOf)
  | some seek =>
    if seek.length = t.relation.primaryKey.length then do
      let key ← seek.mapM (bindValue params)
      .ok (t.get? key asOf).toList
    else .error (.seekArity t.relation.name t.relation.primaryKey.length seek.length)

/-- The row of an insertion, from the values that are given and null for the rest. -/
def insertedRow (t : Table) (params : List String) (row : Row) :
    List (Nat × Operand) → Except ExecError Row
  | [] => .ok row
  | (i, o) :: rest =>
    if row.length ≤ i then .error (.columnIndex t.relation.name i)
    else do insertedRow t params (row.set i (← bindValue params o)) rest

def bindAssignments (params : List String) (assignments : List (Nat × Operand)) :
    Except ExecError (List (Nat × Value)) :=
  assignments.mapM fun (i, o) => (bindValue params o).map fun v => (i, v)

def columnNames (t : Table) (projection : List Nat) : Except ExecError (List String) :=
  projection.mapM fun i =>
    match t.relation.columns[i]? with
    | some c => .ok c.name
    | none => .error (.columnIndex t.relation.name i)

/-- Takes the rows of some keys out, one after the other, and counts them. -/
def deleteAll (now : Instant) (t : Table) : List Key → Nat × Table
  | [] => (0, t)
  | key :: rest =>
    let (m, t) := t.delete key now
    let (n, t) := deleteAll now t rest
    (if m = .applied then n + 1 else n, t)

def refusal (e : TableError) : ExecError := .storage (.table e)

end Execution

namespace Bounded

open Execution

variable {m : Type → Type} [Monad m] [Bounded m]

/-- Whether a row meets a comparison. The row must have its column. -/
def holds (c : Test) (row : Row) : m Bool :=
  demand (row[c.column]?.map fun v => compares v c.op c.value) false

/-- The rows that meet all tests. Those after one that a row does not meet are not tried on it. -/
def meeting (tests : List Test) : List Row → m (List Row)
  | [] => return []
  | row :: rest => do
    let meets ← tests.allM fun c => holds c row
    let rest ← meeting tests rest
    return if meets then row :: rest else rest

/-- The rows that an access finds, in the order of their keys. -/
def matchingRows (t : Table) (a : Access) (params : List String) (asOf : Option Instant) :
    ExceptT ExecError m (List Row) := do
  let tests ← (a.filters.mapM (bindFilter t params) : Except ExecError (List Test))
  let rows ← candidates t params asOf a.seek
  (meeting tests rows : m (List Row))

def matchingKeys (t : Table) (a : Access) (params : List String) :
    ExceptT ExecError m (List Key) := do
  return (← matchingRows t a params none).map t.relation.keyOf

def project (projection : List Nat) (row : Row) : m Row :=
  projection.mapM fun i => demand row[i]? .null

/-- Assigns columns of the rows of some keys, one after the other, and counts them. What was
written before a refusal stays written. -/
def updateAll (assignments : List (Nat × Value)) (now : Instant) (t : Table) :
    List Key → m (Except TableError Nat × Table)
  | [] => return (.ok 0, t)
  | key :: rest => do
    match ← (update t key assignments now).run with
    | .error e => return (.error e, t)
    | .ok (mutation, t) =>
      let (n, t) ← updateAll assignments now t rest
      return (n.map fun n => if mutation = .applied then n + 1 else n, t)

/-- The assignments of an update and the keys of its rows, which are found before any is written. -/
def bindUpdate (t : Table) (assignments : List (Nat × Operand)) (access : Access)
    (params : List String) : ExceptT ExecError m (List (Nat × Value) × List Key) := do
  let values ← bindAssignments params assignments
  return (values, ← matchingKeys t access params)

def select (t : Table) (projection : List Nat) (asOf : Option Operand) (access : Access)
    (params : List String) : ExceptT ExecError m QueryOutput := do
  let asOf ← (asOf.mapM (bindInstant params) : Except ExecError (Option Instant))
  let columns ← columnNames t projection
  let rows ← matchingRows t access params asOf
  return .resultSet columns (← (rows.mapM (project projection) : m (List Row)))

def runOperation (op : Operation) (t : Table) (params : List String) (now : Instant) :
    m (Except ExecError QueryOutput × Table) :=
  match op with
  | .insert values =>
    match insertedRow t params (List.replicate t.relation.arity .null) values with
    | .error e => return (.error e, t)
    | .ok row => do
      match ← (insert t row now).run with
      | .error e => return (.error (refusal e), t)
      | .ok t => return (.ok (.affected 1), t)
  | .update assignments access => do
    match ← (bindUpdate t assignments access params).run with
    | .error e => return (.error e, t)
    | .ok (values, keys) =>
      let (n, t) ← updateAll values now t keys
      return ((n.map QueryOutput.affected).mapError refusal, t)
  | .delete access => do
    match ← (matchingKeys t access params).run with
    | .error e => return (.error e, t)
    | .ok keys =>
      let (n, t) := deleteAll now t keys
      return (.ok (.affected n), t)
  | .select projection asOf access => do
    return (← (select t projection asOf access params).run, t)

/-- Runs the program of a query. One that explains, or is to be explained, gives its text whatever
the parameters are; another needs all of its parameters. -/
def runQuery (q : QueryProgram) (db : Database) (params : List String) (explain : Bool)
    (now : Instant) : m (Except ExecError QueryOutput × Database) :=
  match q.body with
  | .explain text => return (.ok (.explained text), db)
  | .execute op =>
    if explain then return (.ok (.explained (Listing.operationText op)), db)
    else if params.length < q.params then
      return (.error (.missingParam params.length params.length), db)
    else match db.table q.table with
      | .error e => return (.error (.storage e), db)
      | .ok t => do
        let (output, t) ← runOperation op t params now
        return (output, db.setTable q.table t)

end Bounded

namespace Execution

def Test.holds (c : Test) (row : Row) : Bool := Id.run (Bounded.holds c row)

def matchingRows (t : Table) (a : Access) (params : List String) (asOf : Option Instant) :
    Except ExecError (List Row) :=
  Bounded.outcome (Bounded.matchingRows t a params asOf)

def matchingKeys (t : Table) (a : Access) (params : List String) : Except ExecError (List Key) :=
  Bounded.outcome (Bounded.matchingKeys t a params)

def project (projection : List Nat) (row : Row) : Row := Id.run (Bounded.project projection row)

def updateAll (assignments : List (Nat × Value)) (now : Instant) (t : Table) (keys : List Key) :
    Except TableError Nat × Table :=
  Id.run (Bounded.updateAll assignments now t keys)

def bindUpdate (t : Table) (assignments : List (Nat × Operand)) (access : Access)
    (params : List String) : Except ExecError (List (Nat × Value) × List Key) :=
  Bounded.outcome (Bounded.bindUpdate t assignments access params)

def select (t : Table) (projection : List Nat) (asOf : Option Operand) (access : Access)
    (params : List String) : Except ExecError QueryOutput :=
  Bounded.outcome (Bounded.select t projection asOf access params)

def runOperation (op : Operation) (t : Table) (params : List String) (now : Instant) :
    Except ExecError QueryOutput × Table :=
  Id.run (Bounded.runOperation op t params now)

def runQuery (q : QueryProgram) (db : Database) (params : List String) (explain : Bool)
    (now : Instant) : Except ExecError QueryOutput × Database :=
  Id.run (Bounded.runQuery q db params explain now)

variable {t : Table} {params : List String} {now : Instant}

theorem Test.holds_eq (c : Test) (row : Row) :
    c.holds row = row[c.column]?.any fun v => compares v c.op c.value := by
  change (row[c.column]?.map fun v => compares v c.op c.value).getD false = _
  cases row[c.column]? with
  | none => rfl
  | some v => rfl

theorem run_allM_holds (tests : List Test) (row : Row) :
    (tests.allM fun c => (Bounded.holds c row : Id Bool)).run = tests.all fun c => c.holds row := by
  induction tests with
  | nil => rfl
  | cons c rest ih =>
      rw [List.allM, Id.run_bind, List.all_cons]
      change Id.run (match c.holds row with | true => _ | false => _) = _
      cases c.holds row with
      | true => exact ih
      | false => rfl

theorem run_meeting (tests : List Test) (rows : List Row) :
    (Bounded.meeting tests rows : Id (List Row)).run =
      rows.filter fun row => tests.all fun c => c.holds row := by
  induction rows with
  | nil => rfl
  | cons row rest ih =>
      rw [Bounded.meeting, Id.run_bind, run_allM_holds, Id.run_bind, ih, List.filter_cons]
      rfl

theorem matchingRows_eq (a : Access) (asOf : Option Instant) :
    matchingRows t a params asOf =
      a.filters.mapM (bindFilter t params) >>= fun tests =>
        candidates t params asOf a.seek >>= fun rows =>
          .ok (rows.filter fun row => tests.all fun c => c.holds row) := by
  refine (Bounded.outcome_bind _ _).trans (bind_congr fun tests => ?_)
  refine (Bounded.outcome_bind _ _).trans (bind_congr fun rows => ?_)
  exact congrArg Except.ok (run_meeting tests rows)

theorem matchingKeys_eq (a : Access) :
    matchingKeys t a params = matchingRows t a params none >>= fun rows =>
      .ok (rows.map t.relation.keyOf) :=
  Bounded.outcome_bind _ _

theorem project_eq (projection : List Nat) (row : Row) :
    project projection row = projection.map fun i => row[i]?.getD .null :=
  List.idRun_mapM

theorem updateAll_cons (assignments : List (Nat × Value)) (key : Key) (rest : List Key) :
    updateAll assignments now t (key :: rest) =
      match t.update key assignments now with
      | .error e => (.error e, t)
      | .ok (m, t) =>
        ((updateAll assignments now t rest).1.map fun n => if m = .applied then n + 1 else n,
          (updateAll assignments now t rest).2) := by
  unfold updateAll
  rw [Bounded.updateAll, Id.run_bind]
  change Id.run (match t.update key assignments now with | .error e => _ | .ok (m, t) => _) = _
  cases t.update key assignments now with
  | error e => rfl
  | ok result => rfl

theorem bindUpdate_eq (assignments : List (Nat × Operand)) (a : Access) :
    bindUpdate t assignments a params = bindAssignments params assignments >>= fun values =>
      matchingKeys t a params >>= fun keys => .ok (values, keys) := by
  refine (Bounded.outcome_bind _ _).trans (bind_congr fun values => ?_)
  exact Bounded.outcome_bind _ _

theorem select_eq (projection : List Nat) (asOf : Option Operand) (a : Access) :
    select t projection asOf a params =
      asOf.mapM (bindInstant params) >>= fun asOf =>
        columnNames t projection >>= fun columns =>
          matchingRows t a params asOf >>= fun rows =>
            .ok (.resultSet columns (rows.map (project projection))) := by
  refine (Bounded.outcome_bind _ _).trans (bind_congr fun asOf => ?_)
  refine (Bounded.outcome_bind _ _).trans (bind_congr fun columns => ?_)
  refine (Bounded.outcome_bind _ _).trans (bind_congr fun rows => ?_)
  exact congrArg (fun rows => Except.ok (QueryOutput.resultSet columns rows)) List.idRun_mapM

theorem runOperation_insert (values : List (Nat × Operand)) :
    runOperation (.insert values) t params now =
      match insertedRow t params (List.replicate t.relation.arity .null) values with
      | .error e => (.error e, t)
      | .ok row =>
        match t.insert row now with
        | .error e => (.error (refusal e), t)
        | .ok t => (.ok (.affected 1), t) := by
  unfold runOperation Bounded.runOperation
  dsimp only
  cases insertedRow t params (List.replicate t.relation.arity .null) values with
  | error e => rfl
  | ok row =>
      dsimp only
      rw [Id.run_bind]
      change Id.run (match t.insert row now with | .error e => _ | .ok t => _) = _
      cases t.insert row now with
      | error e => rfl
      | ok t => rfl

theorem runOperation_update (assignments : List (Nat × Operand)) (a : Access) :
    runOperation (.update assignments a) t params now =
      match bindUpdate t assignments a params with
      | .error e => (.error e, t)
      | .ok (values, keys) =>
        (((updateAll values now t keys).1.map QueryOutput.affected).mapError refusal,
          (updateAll values now t keys).2) := by
  unfold runOperation Bounded.runOperation
  dsimp only
  rw [Id.run_bind]
  change Id.run
    (match bindUpdate t assignments a params with | .error e => _ | .ok (values, keys) => _) = _
  cases bindUpdate t assignments a params with
  | error e => rfl
  | ok bound => rfl

theorem runOperation_delete (a : Access) :
    runOperation (.delete a) t params now =
      match matchingKeys t a params with
      | .error e => (.error e, t)
      | .ok keys => (.ok (.affected (deleteAll now t keys).1), (deleteAll now t keys).2) := by
  unfold runOperation Bounded.runOperation
  dsimp only
  rw [Id.run_bind]
  change Id.run (match matchingKeys t a params with | .error e => _ | .ok keys => _) = _
  cases matchingKeys t a params with
  | error e => rfl
  | ok keys => rfl

theorem runOperation_select (projection : List Nat) (asOf : Option Operand) (a : Access) :
    runOperation (.select projection asOf a) t params now =
      (select t projection asOf a params, t) := rfl

theorem runQuery_eq (q : QueryProgram) (db : Database) (explain : Bool) :
    runQuery q db params explain now =
      match q.body with
      | .explain text => (.ok (.explained text), db)
      | .execute op =>
        if explain then (.ok (.explained (Listing.operationText op)), db)
        else if params.length < q.params then
          (.error (.missingParam params.length params.length), db)
        else match db.table q.table with
          | .error e => (.error (.storage e), db)
          | .ok t =>
            ((runOperation op t params now).1,
              db.setTable q.table (runOperation op t params now).2) := by
  unfold runQuery Bounded.runQuery
  cases q.body with
  | explain text => rfl
  | execute op =>
      dsimp only
      split
      · rfl
      · split
        · rfl
        · split
          · rfl
          · rfl

end Execution

end TemporalDB
