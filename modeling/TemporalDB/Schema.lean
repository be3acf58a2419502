import TemporalDB.Value

/-!
# Schemas

A schema lists relations, a relation its columns and the columns of its primary key. Names are
looked up without regard to case, and the first that fits is taken.
-/

namespace TemporalDB

open Text

structure Column where
  name : String
  type : ScalarType
  notNull : Bool
deriving DecidableEq, Inhabited

/-- A relation: its columns in order, and which of them form the primary key. -/
structure Relation where
  name : String
  columns : List Column
  /-- Places in `columns`, in key order. -/
  primaryKey : List Nat
  /-- A temporal relation keeps every version of a row, a conventional one the last only. -/
  temporal : Bool
deriving DecidableEq

namespace Relation

def arity (r : Relation) : Nat := r.columns.length

def columnIndex? (r : Relation) (name : String) : Option Nat :=
  r.columns.findIdx? fun c => sameName c.name name

def column? (r : Relation) (name : String) : Option Column :=
  r.columns.find? fun c => sameName c.name name

def isKeyColumn (r : Relation) (index : Nat) : Bool := r.primaryKey.contains index

/-- The key of a row. A column that the row lacks counts as null. -/
def keyOf (r : Relation) (row : Row) : Key :=
  r.primaryKey.map fun i => (row[i]?).getD .null

end Relation

structure Schema where
  relations : List Relation
deriving DecidableEq

def Schema.relation? (s : Schema) (name : String) : Option Relation :=
  s.relations.find? fun r => sameName r.name name

end TemporalDB
