import TemporalDB.Query
import TemporalDB.Schema

/-!
# Compiled units

A unit is what a schema or a query is compiled to: the entry points that it exposes and a program.
The program of a definition is its schema; the program of a query is an operation whose columns are
places in the table's relation and whose literals are values, or a text that explains it.
-/

namespace TemporalDB

inductive Operand where
  /-- The parameter at a place, read as a value of the type when the operation runs. -/
  | param (index : Nat) (type : ScalarType)
  /-- A value known beforehand. -/
  | const (type : ScalarType) (value : Value)
deriving DecidableEq

/-- A comparison of the column at a place with an operand. -/
structure Filter where
  column : Nat
  op : Comparator
  operand : Operand
deriving DecidableEq

structure Access where
  /-- The whole key, if the condition fixes it. -/
  seek : Option (List Operand)
  filters : List Filter
deriving DecidableEq

/-- A statement whose names are resolved. -/
inductive Operation where
  /-- Columns that are not named become null. -/
  | insert (values : List (Nat × Operand))
  | update (assignments : List (Nat × Operand)) (access : Access)
  | delete (access : Access)
  | select (projection : List Nat) (asOf : Option Operand) (access : Access)
deriving DecidableEq

inductive Body where
  | execute (op : Operation)
  /-- Gives the text and does nothing else. -/
  | explain (text : String)
deriving DecidableEq

structure QueryProgram where
  /-- How many parameters must be supplied. -/
  params : Nat
  table : String
  body : Body
deriving DecidableEq

inductive Program where
  | definition (schema : Schema)
  | query (q : QueryProgram)
deriving DecidableEq

structure CompiledUnit where
  /-- The version of the unit's layout. -/
  abi : UInt32
  exports : List String
  program : Program
deriving DecidableEq

def abiVersion : UInt32 := 1

namespace EntryPoint

def makeDatabase : String := "make_database"

def getSize : String := "get_size"

def query : String := "query"

end EntryPoint

def CompiledUnit.hasExport (u : CompiledUnit) (symbol : String) : Bool := u.exports.contains symbol

end TemporalDB
