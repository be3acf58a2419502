import TemporalDB.Sha256
import TemporalDB.Shell.Tool.Lines

/-!
# Programs for content

Comparing files, cutting them and finding their digests.
-/

namespace TemporalDB.Shell.Tool

open Text

/-- How many bytes two texts have in common at their front. -/
def commonLength : List Char → List Char → Nat
  | a :: s, b :: t => if a = b then commonLength s t + 1 else 0
  | _, _ => 0

/-- Compares two files. -/
def cmp : Tool := withOptions "bi:ln:s" [("silent", 's'), ("quiet", 's')] 2 fun u => do
  match u.operands with
  | first :: second :: _ =>
    match ← readFile first, ← readFile second with
    | .ok a, .ok b =>
      let (s, t) := (octetsOfBytes a, octetsOfBytes b)
      let n := commonLength s t
      let lines := (s.take n).count '\n'
      if n = s.length && n = t.length then return 0
      else if u.has 's' then return 1
      else if n < s.length && n < t.length then
        putLine (first ++ " " ++ second ++ " differ: byte " ++ showNat (n + 1) ++ ", line " ++
          showNat (lines + 1))
        return 1
      else
        let shorter := if n = s.length then first else second
        let atLineEnd : Bool := (s.take n).getLast? = some '\n'
        let place := if n = 0 then " which is empty"
          else " after byte " ++ showNat n ++
            if atLineEnd then ", line " ++ showNat lines else ", in line " ++ showNat (lines + 1)
        complain ("EOF on " ++ shorter ++ place)
        return 1
    | .error e, _ =>
      complain (first ++ ": " ++ e.reason)
      return 2
    | _, .error e =>
      complain (second ++ ": " ++ e.reason)
      return 2
  | words => misused ("missing operand after " ++ quoted (words.headD (← asks (·.name)))) 2

/-- Makes files longer or shorter. -/
def truncate : Tool := withOptions "cs:" [("size", 's')] 1 fun u => do
  match u.get? 's', u.operands with
  | none, _ => misused "you must specify either '--size' or '--reference'" 1
  | some _, [] => misused "missing file operand" 1
  | some word, names =>
    match size? word with
    | none =>
      complain ("Invalid number: " ++ quoted word)
      return 1
    | some size =>
      forEach names fun name => do
        let old := ((← files).read (path name)).toOption
        let length := (old.map (·.size)).getD 0
        let goal := match size.sign with
          | some '+' => length + size.count
          | some _ => length - size.count
          | none => size.count
        let zeros := (List.replicate (goal - length) (0 : UInt8)).toByteArray
        let content := (old.getD .empty).extract 0 goal ++ zeros
        if u.has 'c' && old.isNone then return 0
        else match ← alterFiles (·.write (path name) content) with
          | .ok () => return 0
          | .error e =>
            complain ("cannot open " ++ quoted name ++ " for writing: " ++ e.reason)
            return 1

def sha256sum : Tool := withOptions "bt" [("binary", 'b'), ("text", 't')] 1 fun u => do
  forEach (if u.operands.isEmpty then ["-"] else u.operands) fun w => do
    match ← readFile w with
    | .ok bytes =>
      putLine (String.ofList (Sha256.digest bytes.toList) ++ (if u.has 'b' then " *" else "  ") ++ w)
      return 0
    | .error e =>
      complain (plainComplaint w e)
      return 1

def uname : Tool := withOptions "s" [("kernel-name", 's')] 1 fun _ => do
  putLine "Linux"
  return 0

end TemporalDB.Shell.Tool
