import TemporalDB.ExecutionUnit

/-!
# The loader

A loader reads units from files and may keep them open, so that the next load of the same path does
not read the file again. It knows how many loaded units are still in use.
-/

namespace TemporalDB

structure OpenUnit where
  path : Path
  serial : Nat
  unit : CompiledUnit

structure Loader where
  keepOpen : Bool
  /-- The units that are kept open, by the parts of their paths. -/
  kept : OrderedMap (List String) OpenUnit
  /-- How many units have been read. -/
  reads : Nat
  /-- The serials of the loaded units in use. -/
  live : List Nat

namespace Loader

def new (keepOpen : Bool) : Loader := ⟨keepOpen, .empty, 0, []⟩

def readUnit (files : FileTree) (path : Path) : Except LoadError CompiledUnit := do
  let content ← (files.read path).mapError fun e => .cannotOpen path (.unreadable e)
  (CompiledUnit.ofBytes content).mapError fun e => .cannotOpen path (.artifact e)

/-- The unit of a path: the one that is kept open, or else the one in the file. -/
def find (l : Loader) (files : FileTree) (path : Path) : Except LoadError OpenUnit :=
  match l.kept.find? path.parts with
  | some o => .ok o
  | none => (readUnit files path).map fun u => ⟨path, l.reads, u⟩

/-- Loads a unit for some entry points. A unit that lacks one of them is not kept open. -/
def load (l : Loader) (files : FileTree) (path : Path) (symbols : List String) :
    Except LoadError ExecutionUnit × Loader :=
  match l.find files path with
  | .error e => (.error e, l)
  | .ok o =>
    match symbols.find? fun s => !o.unit.provides s with
    | some s => (.error (.symbolMissing s path), l)
    | none =>
      let l := if (l.kept.find? path.parts).isSome then l
        else if l.keepOpen then
          { l with kept := l.kept.insert path.parts o, reads := l.reads + 1 }
        else { l with reads := l.reads + 1 }
      (.ok ⟨path, o.serial, o.unit, symbols⟩, { l with live := o.serial :: l.live })

/-- Takes a loaded unit back. -/
def release (l : Loader) (u : ExecutionUnit) : Loader := { l with live := l.live.erase u.serial }

def invalidate (l : Loader) (path : Path) : Loader := { l with kept := l.kept.erase path.parts }

def openUnits (l : Loader) : Nat := l.kept.size

/-- The number of loaded units in use that share a unit kept open. -/
def outstanding (l : Loader) (o : OpenUnit) : Nat := l.live.count o.serial

/-- Closes every unit. It is an error if one of them is still in use. -/
def shutdown (l : Loader) : Except LoadError Unit × Loader :=
  let closed := { l with kept := .empty }
  match l.kept.values.find? fun o => l.outstanding o ≠ 0 with
  | some o => (.error (.inUse o.path (l.outstanding o)), closed)
  | none => (.ok (), closed)

end Loader

end TemporalDB
