import TemporalDB.Shell.Machine

/-!
# Signals

A signal has a number and a name. A process notices it between two commands; it ends the process
unless the process has said what else is to happen.
-/

namespace TemporalDB.Shell

def signalNames : List String :=
  ["EXIT", "HUP", "INT", "QUIT", "ILL", "TRAP", "ABRT", "BUS", "FPE", "KILL", "USR1", "SEGV",
    "USR2", "PIPE", "ALRM", "TERM", "STKFLT", "CHLD", "CONT", "STOP", "TSTP", "TTIN", "TTOU",
    "URG", "XCPU", "XFSZ", "VTALRM", "PROF", "WINCH", "IO", "PWR", "SYS"]

def signalCount : Nat := 65

def signal? (least : Nat) (word : String) : Option Nat :=
  match Text.readDigits word.toList with
  | some n => if n < signalCount then some n else none
  | none =>
    let name := String.ofList (word.toList.map Char.toUpper)
    (signalNames.findIdx? (· = name)).filter (least ≤ ·)

/-- What is said of a process that a signal has ended, if anything is. -/
def signalMessage (signal : Nat) : Option String :=
  match signal with
  | 1 => some "Hangup"
  | 3 => some "Quit"
  | 4 => some "Illegal instruction"
  | 5 => some "Trace/breakpoint trap"
  | 6 => some "Aborted"
  | 7 => some "Bus error"
  | 8 => some "Floating point exception"
  | 9 => some "Killed"
  | 10 => some "User defined signal 1"
  | 11 => some "Segmentation fault"
  | 12 => some "User defined signal 2"
  | 14 => some "Alarm clock"
  | 15 => some "Terminated"
  | 16 => some "Stack fault"
  | 24 => some "CPU time limit exceeded"
  | 25 => some "File size limit exceeded"
  | 26 => some "Virtual timer expired"
  | 27 => some "Profiling timer expired"
  | 29 => some "I/O possible"
  | 30 => some "Power failure"
  | 31 => some "Bad system call"
  | _ => none

def harmless : List Nat := [0, 17, 18, 19, 20, 21, 22, 23, 28]

def send (signal process : Nat) : Run Bool := do
  let w ← sees id
  if w.living.contains process then
    if signal ≠ 0 then
      changes fun w => { w with signals := w.signals ++ [(process, signal)] }
    return true
  else return false

def takeSignals : Run (List Nat) := do
  let process ← asks (·.process)
  let w ← sees id
  let (own, others) := w.signals.partition fun s => s.1 = process
  changes fun w => { w with signals := others }
  return own.map (·.2)

end TemporalDB.Shell
