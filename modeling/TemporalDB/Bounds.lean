import TemporalDB.Text.Number

/-!
# Going out of bounds

Some computations take a value from a place without asking first whether there is one, and count in
numbers of 64 bits. They are written for any monad that says what happens where there is nothing at
the place or where the count has no successor. By themselves (`Id`) they go on in any case. Built to
a program they panic: always where there is nothing, and where a count overflows if the build checks
for that.
-/

namespace TemporalDB

open Text

/-- What a computation does where it may go out of bounds. -/
class Bounded (m : Type → Type) where
  /-- What must be there; `otherwise` stands for it where the computation goes on without it. -/
  demand {α : Type} (there : Option α) (otherwise : α) : m α
  /-- The next number of 64 bits. -/
  next (n : Nat) : m Nat

instance : Bounded Id where
  demand there otherwise := there.getD otherwise
  next n := (n + 1) % bound64

instance {m : Type → Type} {ε : Type} [Monad m] [Bounded m] : Bounded (ExceptT ε m) where
  demand there otherwise := ExceptT.lift (Bounded.demand there otherwise)
  next n := ExceptT.lift (Bounded.next n)

inductive Panic where
  | outOfRange
  | overflow
deriving DecidableEq

def Panicking (_checked : Bool) (α : Type) : Type := Except Panic α

namespace Panicking

variable {checked : Bool}

instance : Monad (Panicking checked) := inferInstanceAs (Monad (Except Panic))

instance : LawfulMonad (Panicking checked) := inferInstanceAs (LawfulMonad (Except Panic))

instance : Bounded (Panicking checked) where
  demand there _ := match there with
    | some a => .ok a
    | none => .error .outOfRange
  next n :=
    if n + 1 < bound64 then .ok (n + 1)
    else if checked then .error .overflow
    else .ok ((n + 1) % bound64)

end Panicking

/-! ## Going on in any case -/

namespace Bounded

variable {α β ε : Type}

/-- What a computation that may fail comes to when it goes on in any case. -/
def outcome (x : ExceptT ε Id α) : Except ε α := x.run.run

theorem outcome_bind (x : ExceptT ε Id α) (f : α → ExceptT ε Id β) :
    outcome (x >>= f) = outcome x >>= fun a => outcome (f a) := by
  unfold outcome
  rw [ExceptT.run_bind, Id.run_bind]
  cases x.run.run with
  | error e => rfl
  | ok a => rfl

theorem outcome_forM (l : List α) (f : α → ExceptT ε Id Unit) :
    outcome (l.forM f) = l.forM fun a => outcome (f a) := by
  induction l with
  | nil => rfl
  | cons a rest ih =>
      refine (outcome_bind _ _).trans ?_
      rw [ih]
      rfl

end Bounded

end TemporalDB
