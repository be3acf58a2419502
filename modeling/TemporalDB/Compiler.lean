import TemporalDB.Assembly
import TemporalDB.Configuration
import TemporalDB.Encoding.CompiledUnit
import TemporalDB.FileTree
import TemporalDB.Text.Replacement

/-!
# Compilers

A compiler turns the listing at one path into a unit at another. The toolchain of a configuration
says which: the assembler, or a program. How programs run is not said here.
-/

namespace TemporalDB

open Text

inductive BuildError where
  | file (path : Path) (cause : IoError)
  /-- The program failed; without a status a signal ended it. -/
  | toolchain (status : Option Nat) (errors : String)
  | rejected (cause : AssemblyError)
deriving DecidableEq

def BuildError.message : BuildError → String
  | file path cause => path.text ++ ": " ++ cause.message
  | toolchain status errors =>
    "toolchain exited with " ++ (status.elim "a signal" fun n => "status " ++ showNat n) ++ ": " ++
      errors
  | rejected cause => "listing rejected: " ++ cause.message

structure Outcome where
  /-- The status with which the program exited; without one a signal ended it. -/
  status : Option Nat
  /-- What it wrote to its error stream. -/
  errors : String
  files : FileTree

/-- Runs a program with arguments on the files, if there is one of the name. -/
abbrev Runner := String → List String → FileTree → Except IoError Outcome

/-- Turns the listing at the first path into a unit at the second. A failure may leave files
changed. -/
abbrev Compiler := FileTree → Path → Path → Except BuildError Unit × FileTree

namespace Compiler

def inProcess : Compiler := fun files source artifact =>
  match files.readText source with
  | .error e => (.error (.file source e), files)
  | .ok listing =>
    match Assembly.assemble listing with
    | .error e => (.error (.rejected e), files)
    | .ok u =>
      match files.write artifact u.artifact.toUTF8 with
      | .error e => (.error (.file artifact e), files)
      | .ok files => (.ok (), files)

/-- An argument of a command with the paths put in: that of the listing first, then that of the
unit. -/
def expand (source artifact : Path) (arg : String) : String :=
  let put (name : String) (p : Path) := replace name.toList p.text.toList
  String.ofList (put "{artifact}" artifact (put "{source}" source arg.toList))

def command (run : Runner) (program : String) (args : List String) : Compiler :=
    fun files source artifact =>
  match run program (args.map (expand source artifact)) files with
  | .error e => (.error (.file ⟨program⟩ e), files)
  | .ok outcome =>
    if outcome.status = some 0 then (.ok (), outcome.files)
    else (.error (.toolchain outcome.status (trimmed outcome.errors)), outcome.files)

def ofToolchainBy (run : Runner) : Toolchain → Compiler
  | .inProcess => inProcess
  | .command program args => command run program args

end Compiler

end TemporalDB
