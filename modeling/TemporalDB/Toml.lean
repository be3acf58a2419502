import TemporalDB.Binary64

/-!
# TOML values

A document is a table that grows while it is read. A table knows how it came about, since that
decides whether it may still grow: one that only a longer name implied may be defined later, one
that names with dots made grows by such names only, and one in braces is complete.
-/

namespace TemporalDB

inductive Toml where
  | text (s : String)
  | integer (n : Int)
  /-- A number with a fraction or an exponent. -/
  | real (x : Binary64)
  | flag (b : Bool)
  | list (items : List Toml)
  /-- A table in braces. -/
  | inline (entries : List (String × Toml))
  /-- A table: whether it was implied only, and whether names with dots made it. -/
  | table (implied dotted : Bool) (entries : List (String × Toml))
  /-- The tables of one name in double brackets, each a `table`. -/
  | tables (items : List Toml)

namespace Toml

def lookup (name : String) (entries : List (String × Toml)) : Option Toml :=
  (entries.find? fun e => e.1 = name).map (·.2)

def put (name : String) (value : Toml) : List (String × Toml) → List (String × Toml)
  | [] => [(name, value)]
  | e :: rest => if e.1 = name then (name, value) :: rest else e :: put name value rest

/-- Changes the table to which names lead; of tables in double brackets that is the last. On the
way tables are made. Names with dots do not lead through a table that a header defined. -/
def at? (dotted : Bool) (change : Toml → Option Toml) : List String → Toml → Option Toml
  | [], t => change t
  | name :: path, .table implied byDots entries => do
    let child ← match lookup name entries with
      | none => at? dotted change path (.table true dotted [])
      | some (.table i d es) =>
        if dotted && !i then none else at? dotted change path (.table i d es)
      | some (.tables items) => do
        some (.tables (items.dropLast ++ [← at? dotted change path (← items.getLast?)]))
      | some _ => none
    some (.table implied byDots (put name child entries))
  | _ :: _, _ => none

/-- Adds an entry to the table to which names with dots lead. -/
def define (path : List String) (name : String) (value : Toml) (t : Toml) : Option Toml :=
  at? true (fun
    | .table implied dotted entries =>
      if dotted = path.isEmpty || (lookup name entries).isSome then none
      else some (.table implied dotted (entries ++ [(name, value)]))
    | _ => none) path t

def openTable (path : List String) (name : String) (t : Toml) : Option Toml :=
  at? false (fun
    | .table implied dotted entries => do
      let child ← match lookup name entries with
        | none => some (.table false false [])
        | some (.table true false es) => some (.table false false es)
        | some _ => none
      some (.table implied dotted (put name child entries))
    | _ => none) path t

def openElement (path : List String) (name : String) (t : Toml) : Option Toml :=
  at? false (fun
    | .table implied dotted entries => do
      let children ← match lookup name entries with
        | none => some [.table false false []]
        | some (.tables items) => some (items ++ [.table false false []])
        | some _ => none
      some (.table implied dotted (put name (.tables children) entries))
    | _ => none) path t

end Toml

end TemporalDB
