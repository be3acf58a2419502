import TemporalDB.Bounds
import TemporalDB.OrderedMap
import TemporalDB.Schema
import TemporalDB.Value.Order
import TemporalDB.VersionChain

/-!
# Tables

A table holds the rows of a relation by their keys. A temporal table keeps a chain of versions for
every key that it has ever held, a conventional one the present row only; on the present they
answer alike. What is written is checked against the relation first, so that a refused write
changes nothing. Inserting and updating may go out of bounds; the functions of `Bounded` say where.
-/

namespace TemporalDB

open Text

/-- Why a table refuses a row or an assignment. -/
inductive TableError where
  | duplicateKey (table : String) (key : Key)
  | arity (table : String) (expected found : Nat)
  | typeMismatch (table column : String) (value : Value)
  | nullViolation (table column : String)
  /-- A column of the key is to be assigned. -/
  | keyUpdate (table column : String)
deriving DecidableEq

def TableError.message : TableError → String
  | duplicateKey table key =>
    "duplicate key (" ++ String.intercalate ", " (key.map Value.display) ++ ") in " ++ table
  | arity table expected found =>
    table ++ " expects " ++ showNat expected ++ " values, got " ++ showNat found
  | typeMismatch table column value =>
    "value " ++ value.display ++ " does not fit column " ++ table ++ "." ++ column
  | nullViolation table column => "column " ++ table ++ "." ++ column ++ " may not be null"
  | keyUpdate table column =>
    "primary key column " ++ table ++ "." ++ column ++ " cannot be updated"

/-- Whether a write found the row that it was for. -/
inductive Mutation where
  | applied
  | noMatch
deriving DecidableEq

inductive Rows where
  | temporal (chains : OrderedMap Key VersionChain)
  | conventional (rows : OrderedMap Key Row)

structure Table where
  relation : Relation
  rows : Rows

namespace Table

def new (r : Relation) : Table :=
  ⟨r, if r.temporal then .temporal .empty else .conventional .empty⟩

def isTemporal (t : Table) : Bool :=
  match t.rows with
  | .temporal _ => true
  | .conventional _ => false

/-! ## Reading -/

/-- The row of a key, at present or as of an instant. A conventional table has only the
present. -/
def get? (t : Table) (key : Key) (asOf : Option Instant) : Option Row :=
  match t.rows with
  | .temporal chains => ((chains.find? key).bind (·.at? asOf)).map (·.row)
  | .conventional rows => rows.find? key

def scan (t : Table) (asOf : Option Instant) : List Row :=
  match t.rows with
  | .temporal chains => (chains.values.filterMap (·.at? asOf)).map (·.row)
  | .conventional rows => rows.values

/-- All versions of a key, earliest first. Conventional tables keep none. -/
def history? (t : Table) (key : Key) : Option (List RowVersion) :=
  match t.rows with
  | .temporal chains => (chains.find? key).map (·.versions)
  | .conventional _ => none

def size (t : Table) : Nat :=
  match t.rows with
  | .temporal chains => chains.values.countP (·.current?.isSome)
  | .conventional rows => rows.size

/-- The number of stored versions. -/
def physicalSize (t : Table) : Nat :=
  match t.rows with
  | .temporal chains => chains.values.foldl (fun n chain => n + chain.size) 0
  | .conventional rows => rows.size

/-! ## Writing what has been checked -/

/-- Puts a new row in. Its key must not be held at present; a temporal table goes on with the
chain of a key that it has held before. -/
def add (t : Table) (row : Row) (now : Instant) : Except TableError Table :=
  let key := t.relation.keyOf row
  let duplicate := .error (.duplicateKey t.relation.name key)
  match t.rows with
  | .temporal chains =>
    match chains.find? key with
    | some chain =>
      if chain.current?.isSome then duplicate
      else .ok { t with rows := .temporal (chains.insert key (chain.reopen row now)) }
    | none => .ok { t with rows := .temporal (chains.insert key (.new row now)) }
  | .conventional rows =>
    match rows.find? key with
    | some _ => duplicate
    | none => .ok { t with rows := .conventional (rows.insert key row) }

/-- Puts a row in the place of the present row of a key. -/
def replace (t : Table) (key : Key) (row : Row) (now : Instant) : Mutation × Table :=
  match t.rows with
  | .temporal chains =>
    match (chains.find? key).bind (·.supersede? row now) with
    | none => (.noMatch, t)
    | some chain => (.applied, { t with rows := .temporal (chains.insert key chain) })
  | .conventional rows =>
    match rows.find? key with
    | none => (.noMatch, t)
    | some _ => (.applied, { t with rows := .conventional (rows.insert key row) })

/-- Takes the present row of a key out. A temporal table keeps the closed versions. -/
def delete (t : Table) (key : Key) (now : Instant) : Mutation × Table :=
  match t.rows with
  | .temporal chains =>
    match (chains.find? key).bind (·.close? now) with
    | none => (.noMatch, t)
    | some chain => (.applied, { t with rows := .temporal (chains.insert key chain) })
  | .conventional rows =>
    match rows.find? key with
    | none => (.noMatch, t)
    | some _ => (.applied, { t with rows := .conventional (rows.erase key) })

def checkValue (table : String) (c : Column) (v : Value) : Except TableError Unit :=
  if v = .null && c.notNull then .error (.nullViolation table c.name)
  else if v.conforms c.type then .ok ()
  else .error (.typeMismatch table c.name v)

end Table

/-! ## Checking and writing -/

namespace Bounded

variable {m : Type → Type} [Monad m] [Bounded m]

/-- Checks a value against the column at a place, which must be there. -/
def checkValueAt (t : Table) (i : Nat) (v : Value) : ExceptT TableError m Unit := do
  let c ← demand t.relation.columns[i]? default
  Table.checkValue t.relation.name c v

def checkRow (t : Table) (row : Row) : ExceptT TableError m Unit :=
  if row.length = t.relation.arity then row.zipIdx.forM fun (v, i) => checkValueAt t i v
  else throw (.arity t.relation.name t.relation.arity row.length)

/-- Checks an assignment against the relation. It may not touch the key. How many values it would
take to reach a column that is not there is counted in 64 bits. -/
def checkAssignment (t : Table) (i : Nat) (v : Value) : ExceptT TableError m Unit :=
  match t.relation.columns[i]? with
  | none => do throw (.arity t.relation.name t.relation.arity (← next i))
  | some c =>
    if t.relation.isKeyColumn i then throw (.keyUpdate t.relation.name c.name)
    else checkValueAt t i v

def checkAssignments (t : Table) (assignments : List (Nat × Value)) : ExceptT TableError m Unit :=
  assignments.forM fun (i, v) => checkAssignment t i v

def insert (t : Table) (row : Row) (now : Instant) : ExceptT TableError m Table := do
  checkRow t row
  t.add row now

/-- A row with columns assigned, which it must have; of two assignments to one column the later
counts. -/
def assign (row : Row) (assignments : List (Nat × Value)) : m Row :=
  assignments.foldlM (fun row (i, v) =>
    demand (if i < row.length then some (row.set i v) else none) row) row

/-- Assigns columns of the present row of a key. The assignments are checked whether or not there
is one. -/
def update (t : Table) (key : Key) (assignments : List (Nat × Value)) (now : Instant) :
    ExceptT TableError m (Mutation × Table) := do
  checkAssignments t assignments
  match t.get? key none with
  | none => return (.noMatch, t)
  | some row => return t.replace key (← (assign row assignments : m Row)) now

end Bounded

namespace Table

def checkRow (t : Table) (row : Row) : Except TableError Unit :=
  Bounded.outcome (Bounded.checkRow t row)

def checkAssignments (t : Table) (assignments : List (Nat × Value)) : Except TableError Unit :=
  Bounded.outcome (Bounded.checkAssignments t assignments)

def insert (t : Table) (row : Row) (now : Instant) : Except TableError Table :=
  Bounded.outcome (Bounded.insert t row now)

def assign (row : Row) (assignments : List (Nat × Value)) : Row :=
  Id.run (Bounded.assign row assignments)

def update (t : Table) (key : Key) (assignments : List (Nat × Value)) (now : Instant) :
    Except TableError (Mutation × Table) :=
  Bounded.outcome (Bounded.update t key assignments now)

variable {t : Table} {row : Row} {assignments : List (Nat × Value)}

theorem insert_eq (now : Instant) :
    t.insert row now = t.checkRow row >>= fun _ => t.add row now :=
  Bounded.outcome_bind _ _

theorem assign_cons {i : Nat} {v : Value} :
    assign row ((i, v) :: assignments) = assign (row.set i v) assignments := by
  change assign ((if i < row.length then some (row.set i v) else none).getD row) assignments = _
  by_cases inside : i < row.length
  · rw [if_pos inside]
    rfl
  · rw [if_neg inside, List.set_eq_of_length_le (Nat.le_of_not_lt inside)]
    rfl

theorem assign_append {more : List (Nat × Value)} :
    assign row (assignments ++ more) = assign (assign row assignments) more := by
  induction assignments generalizing row with
  | nil => rfl
  | cons a rest ih =>
      obtain ⟨i, v⟩ := a
      rw [List.cons_append, assign_cons, assign_cons, ih]

theorem update_eq (key : Key) (now : Instant) :
    t.update key assignments now = t.checkAssignments assignments >>= fun _ =>
      .ok (match t.get? key none with
        | none => (.noMatch, t)
        | some row => t.replace key (assign row assignments) now) := by
  refine (Bounded.outcome_bind _ _).trans (bind_congr fun _ => ?_)
  cases t.get? key none with
  | none => rfl
  | some row => rfl

end Table

end TemporalDB
