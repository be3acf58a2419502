import TemporalDB.Value

/-!
# Versions of a row

A version of a row is valid from an instant on and up to another, or until further notice. The
versions that a row has had form a chain: the last may be open, all others are closed, and none
begins before the one in front of it ends. An instant that would break this order is moved up to
the chain's last boundary.
-/

namespace TemporalDB

/-- The instants from `start` on and before `stop`; without `stop` the time is open. -/
structure ValidTime where
  start : Instant
  stop : Option Instant
deriving DecidableEq

namespace ValidTime

def isOpen (v : ValidTime) : Bool := v.stop.isNone

def contains (v : ValidTime) (t : Instant) : Bool := v.start ≤ t && v.stop.all (t < ·)

/-- The latest instant that the time mentions. -/
def boundary (v : ValidTime) : Instant := v.stop.getD v.start

end ValidTime

structure RowVersion where
  row : Row
  valid : ValidTime
deriving DecidableEq

/-- The versions of a row: the last one, and those before it, latest first. -/
structure VersionChain where
  last : RowVersion
  earlier : List RowVersion
deriving DecidableEq

namespace VersionChain

def new (row : Row) (t : Instant) : VersionChain := ⟨⟨row, ⟨t, none⟩⟩, []⟩

def versions (c : VersionChain) : List RowVersion := (c.last :: c.earlier).reverse

def size (c : VersionChain) : Nat := c.earlier.length + 1

def current? (c : VersionChain) : Option RowVersion :=
  if c.last.valid.isOpen then some c.last else none

/-- The latest version whose time contains an instant. -/
def asOf? (c : VersionChain) (t : Instant) : Option RowVersion :=
  (c.last :: c.earlier).find? fun v => v.valid.contains t

def at? (c : VersionChain) : Option Instant → Option RowVersion
  | none => c.current?
  | some t => c.asOf? t

/-- The instant, or the chain's last boundary if that is later. -/
def clamp (c : VersionChain) (t : Instant) : Instant := max t c.last.valid.boundary

def close? (c : VersionChain) (t : Instant) : Option VersionChain :=
  if c.last.valid.isOpen then
    some { c with last := { c.last with valid := ⟨c.last.valid.start, some (c.clamp t)⟩ } }
  else none

/-- The chain with a new open version. It is for chains without an open version. -/
def reopen (c : VersionChain) (row : Row) (t : Instant) : VersionChain :=
  ⟨⟨row, ⟨c.clamp t, none⟩⟩, c.last :: c.earlier⟩

/-- The chain with its open version closed and its successor opened at the same instant. -/
def supersede? (c : VersionChain) (row : Row) (t : Instant) : Option VersionChain :=
  (c.close? t).map fun closed => closed.reopen row (c.clamp t)

end VersionChain

end TemporalDB
