import TemporalDB.Text.Number

/-!
# Queries

One SQL statement, not yet resolved: tables and columns are names, and literals keep their text.
`Query.display` writes a query as SQL.
-/

namespace TemporalDB

open Text

inductive Literal where
  /-- A numeral as written. -/
  | number (text : String)
  /-- A string, its quotes taken off. -/
  | string (text : String)
deriving DecidableEq

def Literal.text : Literal → String
  | number t => t
  | string t => t

inductive Expr where
  /-- The parameter at a place, counted from zero. -/
  | param (index : Nat)
  | literal (l : Literal)
deriving DecidableEq

inductive Comparator where
  | eq | notEq | lt | ltEq | gt | gtEq
deriving DecidableEq

def Comparator.symbol : Comparator → String
  | eq => "="
  | notEq => "<>"
  | lt => "<"
  | ltEq => "<="
  | gt => ">"
  | gtEq => ">="

/-- Whether an order between the column and the value meets the comparison. -/
def Comparator.accepts : Comparator → Ordering → Bool
  | eq, o => o.isEq
  | notEq, o => !o.isEq
  | lt, o => o.isLT
  | ltEq, o => o.isLE
  | gt, o => o.isGT
  | gtEq, o => o.isGE

/-- A comparison of a column with a value; a condition is a list of these that must all hold. -/
structure Comparison where
  column : String
  op : Comparator
  value : Expr
deriving DecidableEq

structure Assignment where
  column : String
  value : Expr
deriving DecidableEq

inductive Projection where
  | all
  | columns (names : List String)
deriving DecidableEq

inductive Statement where
  /-- Without a list of columns the values are for all columns in order. -/
  | insert (table : String) (columns : Option (List String)) (values : List Expr)
  | update (table : String) (assignments : List Assignment) (condition : List Comparison)
  | delete (table : String) (condition : List Comparison)
  /-- With `asOf` the rows are read as of that instant. -/
  | select (table : String) (projection : Projection) (asOf : Option Expr)
      (condition : List Comparison)
deriving DecidableEq

namespace Statement

def keyword : Statement → String
  | insert .. => "INSERT"
  | update .. => "UPDATE"
  | delete .. => "DELETE"
  | select .. => "SELECT"

def table : Statement → String
  | insert t .. => t
  | update t .. => t
  | delete t .. => t
  | select t .. => t

def values : Statement → List Expr
  | insert _ _ vs => vs
  | update _ assignments condition => assignments.map (·.value) ++ condition.map (·.value)
  | delete _ condition => condition.map (·.value)
  | select _ _ asOf condition => asOf.toList ++ condition.map (·.value)

end Statement

/-- A statement, and whether it is to be explained and not run. -/
structure Query where
  statement : Statement
  explain : Bool
deriving DecidableEq

namespace Query

/-- The number of parameters that a query needs: one more than the last place it names. -/
def paramCount (q : Query) : Nat :=
  q.statement.values.foldl (fun n e => match e with
    | .param i => max n (i + 1)
    | .literal _ => n) 0

def commaSeparated (items : List String) : String := String.intercalate ", " items

/-- A string literal: single quotes around it, and the quotes inside it doubled. -/
def quoteLiteral (s : String) : String :=
  String.ofList
    (['\''] ++ s.toList.flatMap (fun c => if c = '\'' then ['\'', '\''] else [c]) ++ ['\''])

def displayExpr : Expr → String
  | .param _ => "?"
  | .literal (.number t) => t
  | .literal (.string t) => quoteLiteral t

def displayCondition : String → List Comparison → String
  | _, [] => ""
  | keyword, c :: rest =>
    keyword ++ c.column ++ " " ++ c.op.symbol ++ " " ++ displayExpr c.value ++
      displayCondition " AND " rest

def displayStatement : Statement → String
  | .insert table columns values =>
    "INSERT INTO " ++ table ++
      (match columns with
        | some names => " (" ++ commaSeparated names ++ ")"
        | none => "") ++
      " VALUES (" ++ commaSeparated (values.map displayExpr) ++ ")"
  | .update table assignments condition =>
    "UPDATE " ++ table ++ " SET " ++
      commaSeparated (assignments.map fun a => a.column ++ " = " ++ displayExpr a.value) ++
      displayCondition " WHERE " condition
  | .delete table condition => "DELETE FROM " ++ table ++ displayCondition " WHERE " condition
  | .select table projection asOf condition =>
    "SELECT " ++
      (match projection with
        | .all => "*"
        | .columns names => commaSeparated names) ++
      " FROM " ++ table ++
      (match asOf with
        | some e => " FOR SYSTEM_TIME AS OF " ++ displayExpr e
        | none => "") ++
      displayCondition " WHERE " condition

def display (q : Query) : String :=
  (if q.explain then "EXPLAIN " else "") ++ displayStatement q.statement

end Query

end TemporalDB
