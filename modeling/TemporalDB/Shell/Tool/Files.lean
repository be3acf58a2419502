import TemporalDB.Shell.Tool.Basic

/-!
# Programs for files

Showing, copying, moving, making and removing files and directories.
-/

namespace TemporalDB.Shell.Tool

open Text

/-! ## Showing -/

def numbered (blankToo : Bool) : Nat → List (List Char) → List (List Char)
  | _, [] => []
  | n, line :: rest =>
    if line.isEmpty && !blankToo then line :: numbered blankToo n rest
    else
      let ds := Nat.toDigits 10 n
      (List.replicate (6 - ds.length) ' ' ++ ds ++ '\t' :: line) ::
        numbered blankToo (n + 1) rest

def visible (u : Usage) (line : List Char) : List Char :=
  if u.has 'T' || u.has 'A' || u.has 't' then
    line.flatMap fun c => if c = '\t' then ['^', 'I'] else [c]
  else line

def squeezed : List (List Char) → List (List Char)
  | [] :: [] :: rest => squeezed ([] :: rest)
  | line :: rest => line :: squeezed rest
  | [] => []

def joined (lines : List (List Char)) (ended : Bool) : List Char :=
  let s := (lines.map (· ++ ['\n'])).flatten
  if ended then s else s.dropLast

/-- Whether the output goes to the file that a word names, or that the input is from, behind the
place where that is read. -/
def isOwnOutput (word : String) : Run Bool := do
  match ← channel? 1 with
  | some (_, .file place offset appends _ _) =>
    let t ← sees (·.files)
    let size := match t.node? place with
      | some (.file content) => content.size
      | _ => 0
    let written := if appends then size else offset
    if word = "-" then
      match ← channel? 0 with
      | some (_, .file other read _ _ _) => return other = place && read < written
      | _ => return false
    else return ((← files).place (path word)).toOption = some place && 0 < written
  | _ => return false

def showAll (words : List String) : Run Nat := do
  let status ← forEach words fun w => do
    if ← isOwnOutput w then
      complain (shown w ++ ": input file is output file")
      return 1
    else match ← readFile w with
      | .ok bytes =>
        put (octetsOfBytes bytes)
        return 0
      | .error e =>
        complain (plainComplaint w e)
        return 1
  if words.contains "-" && (← channel? 0).isNone then
    complain ("closing standard input: " ++ IoError.badStream.reason)
  return status

def cat : Tool := withOptions "AbeEnstTuv"
  [("number", 'n'), ("show-all", 'A'), ("show-ends", 'E'), ("show-tabs", 'T'),
    ("squeeze-blank", 's'), ("number-nonblank", 'b')] 1 fun u => do
  if (← channel? 1).isNone then
    complain ("standard output: " ++ IoError.badStream.reason)
    return 1
  else if u.options.all (·.1 = 'u') then
    showAll (if u.operands.isEmpty then ["-"] else u.operands)
  else
    let (found, status) ← contents u.operands plainComplaint
    let (lines, ended) := linesOf (found.flatMap (·.2))
    let lines := if u.has 's' then squeezed lines else lines
    let mark (line : List Char) (last : Bool) : List Char :=
      if (u.has 'E' || u.has 'A' || u.has 'e') && !(last && !ended) then line ++ ['$'] else line
    let lines := lines.zipIdx.map fun (line, i) => mark (visible u line) (i + 1 = lines.length)
    let lines := if u.has 'b' then numbered false 1 lines
      else if u.has 'n' then numbered true 1 lines else lines
    put (joined lines ended)
    return status

/-! ## Places -/

def within (directory name : String) : String :=
  if directory.endsWith "/" then directory ++ name else directory ++ "/" ++ name

def lastName (name : String) : String :=
  octets (((path name).named.getLast?).getD "")

def below (t : FileTree) (place : List String) : List (List String × Node) :=
  t.nodes.entries.filterMap fun (other, node) =>
    if place.isPrefixOf other && other ≠ place then some (other.drop place.length, node) else none

/-- Whether there is anything at a path, and why it cannot be told. -/
def status (name : String) : Run (Except IoError Node) := do
  if isNull name || (device? name).isSome then return .ok (.file .empty)
  else
    let t ← files
    return match t.place (path name) with
      | .error e => .error e
      | .ok place =>
        match t.node? place with
        | none => .error .notFound
        | some node => .ok node

def isDirectory (name : String) : Run Bool := return (← files).isDirectory (path name)

def isSame (a b : String) : Run Bool := do
  let t ← files
  match t.place (path a), t.place (path b) with
  | .ok p, .ok q => return p = q && (t.node? p).isSome
  | _, _ => return false

/-! ## Copying and moving -/

def complainOf (text : String) : Run Nat := do
  complain text
  return 1

def copyFile (u : Usage) (source target : String) : Run Nat := do
  match ← readFile source with
  | .error e => complainOf ("cannot open " ++ quoted source ++ " for reading: " ++ e.reason)
  | .ok bytes =>
    if isNull target then return 0
    else
      if u.has 'n' && (← files).exists (path target) then return 0
      let refused (e : IoError) : Run Nat := do
        let e := if e = .isADirectory && (path target).endsInSlash then IoError.notADirectory else e
        complainOf ("cannot create regular file " ++ quoted target ++ ": " ++ e.reason)
      match ← alterFiles (·.write (path target) bytes) with
      | .error e => refused e
      | .ok () =>
        if u.has 'v' then putLine (quoted source ++ " -> " ++ quoted target)
        return 0

/-- Copies a directory with all that is below it to a path. -/
def copyDirectory (source target : String) : Run Nat := do
  let t ← files
  match t.place (path source), t.place (path target) with
  | .ok there, .ok goal =>
    if there.isPrefixOf goal then
      complainOf ("cannot copy a directory, " ++ quoted source ++ ", into itself, " ++
        quoted target)
    else match t.node? goal with
      | some (.file _) =>
        complainOf ("cannot overwrite non-directory " ++ quoted target ++ " with directory " ++
          quoted source)
      | _ =>
        let nodes := (below t there).foldl (fun nodes (rest, node) =>
          match node, nodes.find? (goal ++ rest) with
          | .directory, some .directory => nodes
          | _, _ => nodes.insert (goal ++ rest) node) (t.nodes.insert goal .directory)
        changes fun w => { w with files := { w.files with nodes } }
        return 0
  | _, _ =>
    complainOf ("cannot create directory " ++ quoted target ++ ": " ++ IoError.notFound.reason)

/-- Copies a file or a directory to a path. -/
def copyTo (u : Usage) (source target : String) : Run Nat := do
  match ← status source with
  | .error e => complainOf ("cannot stat " ++ quoted source ++ ": " ++ e.reason)
  | .ok .directory =>
    if u.has 'r' || u.has 'R' || u.has 'a' then copyDirectory source target
    else complainOf ("-r not specified; omitting directory " ++ quoted source)
  | .ok (.file _) =>
    if ← isSame source target then
      complainOf (quoted source ++ " and " ++ quoted target ++ " are the same file")
    else if ← isDirectory target then
      complainOf ("cannot overwrite directory " ++ quoted target ++ " with non-directory")
    else match ← status target with
      | .error .notADirectory =>
        complainOf ("cannot stat " ++ quoted target ++ ": " ++ IoError.notADirectory.reason)
      | _ => copyFile u source target

/-- Moves a file or a directory to a path. -/
def moveTo (u : Usage) (source target : String) : Run Nat := do
  match ← status source with
  | .error e => complainOf ("cannot stat " ++ quoted source ++ ": " ++ e.reason)
  | .ok node =>
    let sourceIsDirectory : Bool := node matches .directory
    if ← isSame source target then
      if sourceIsDirectory then
        complainOf ("cannot move " ++ quoted source ++ " to a subdirectory of itself, " ++
          quoted target)
      else complainOf (quoted source ++ " and " ++ quoted target ++ " are the same file")
    else
      let there ← status target
      if u.has 'n' && there.isOk then return 0
      match there, sourceIsDirectory with
      | .error .notADirectory, _ =>
        complainOf ("cannot stat " ++ quoted target ++ ": " ++ IoError.notADirectory.reason)
      | .ok (.file _), true =>
        complainOf ("cannot overwrite non-directory " ++ quoted target ++ " with directory " ++
          quoted source)
      | .ok .directory, false =>
        complainOf ("cannot overwrite directory " ++ quoted target ++ " with non-directory")
      | _, _ =>
        match ← alterFiles (·.rename (path source) (path target)) with
        | .ok () =>
          if u.has 'v' then putLine ("renamed " ++ quoted source ++ " -> " ++ quoted target)
          return 0
        | .error .invalidArgument =>
          complainOf ("cannot move " ++ quoted source ++ " to a subdirectory of itself, " ++
            quoted target)
        | .error .notEmpty =>
          complainOf ("cannot overwrite " ++ quoted target ++ ": " ++ IoError.notEmpty.reason)
        | .error e =>
          complainOf ("cannot move " ++ quoted source ++ " to " ++ quoted target ++ ": " ++
            e.reason)

/-- Does something with files and a place for them: the last operand, or the directory that an
option names. -/
def toTarget (one : String → String → Run Nat) (u : Usage) : Run Nat := do
  let into (directory source : String) : Run Nat := one source (within directory (lastName source))
  match u.get? 't', u.operands with
  | some directory, sources =>
    if sources.isEmpty then misused "missing file operand" 1
    else match ← status directory with
      | .ok .directory => forEach sources (into directory)
      | .ok (.file _) =>
        complainOf ("target directory " ++ quoted directory ++ ": Not a directory")
      | .error e => complainOf ("target directory " ++ quoted directory ++ ": " ++ e.reason)
  | none, [] => misused "missing file operand" 1
  | none, [a] => misused ("missing destination file operand after " ++ quoted a) 1
  | none, [source, target] =>
    if (← isDirectory target) && !u.has 'T' then into target source else one source target
  | none, operands =>
    let target := operands.getLast?.getD ""
    if u.has 'T' then
      misused ("extra operand " ++ quoted ((operands.drop 2).headD "")) 1
    else match ← status target with
      | .ok .directory => forEach operands.dropLast (into target)
      | .ok (.file _) => complainOf ("target " ++ quoted target ++ ": Not a directory")
      | .error e => complainOf ("target " ++ quoted target ++ ": " ++ e.reason)

def cp : Tool := withOptions "abdfHiLlnPpRrst:Tuvx"
  [("recursive", 'r'), ("force", 'f'), ("archive", 'a'), ("verbose", 'v'), ("no-clobber", 'n'),
    ("target-directory", 't'), ("no-target-directory", 'T')] 1 fun u =>
  toTarget (copyTo u) u

def mv : Tool := withOptions "bfint:Tuv"
  [("force", 'f'), ("verbose", 'v'), ("no-clobber", 'n'), ("target-directory", 't'),
    ("no-target-directory", 'T')] 1 fun u =>
  toTarget (moveTo u) u

/-- Makes a file with the content of what a path leads to from the directory of the file. If that
is nothing, no file is made. -/
def linkByName (u : Usage) (source target : String) : Run Nat := do
  let t ← files
  let failed (e : IoError) : Run Nat :=
    complainOf ("failed to create symbolic link " ++ quoted target ++ ": " ++ e.reason)
  match t.place (path target) with
  | .error e => failed e
  | .ok place =>
    if !u.has 'f' && (t.node? place).isSome then failed .alreadyExists
    else
      let above := { t with home := place.dropLast }
      match (above.place (path source)).toOption with
      | none => return 0
      | some goal =>
        changes fun w =>
          let nodes := (below t goal).foldl (fun nodes (rest, node) =>
            nodes.insert (place ++ rest) node) w.files.nodes
          let nodes := match t.node? goal with
            | some node => nodes.insert place node
            | none => nodes
          { w with files := { w.files with nodes } }
        return 0

/-- Makes files that lead to where others lead. The content is the same. -/
def ln : Tool := withOptions "bdfinst:Tv" [("force", 'f'), ("symbolic", 's')] 1 fun u =>
  let link (source target : String) : Run Nat := do
    if u.has 's' then return ← linkByName u source target
    let failed (e : IoError) : Run Nat :=
      complainOf ("failed to create hard link " ++ quoted target ++ ": " ++ e.reason)
    match ← status source with
    | .error e => complainOf ("failed to access " ++ quoted source ++ ": " ++ e.reason)
    | .ok .directory =>
      complainOf (source ++ ": hard link not allowed for directory")
    | .ok (.file bytes) =>
      if !u.has 'f' && (← files).exists (path target) then failed .alreadyExists
      else match ← alterFiles (·.write (path target) bytes) with
        | .ok () => return 0
        | .error e => failed e
  match u.operands with
  | [a] => link a (lastName a)
  | _ => toTarget link u

/-! ## Removing -/

def removeAll (place : List String) : Run Unit :=
  changes fun w =>
    let kept := w.files.nodes.entries.filter fun (other, _) => !place.isPrefixOf other
    { w with files := { w.files with nodes := .ofList kept } }

/-- Removes a file, or a directory if that is asked for. -/
def removeOne (u : Usage) (name : String) : Run Nat := do
  let recursive := u.has 'r' || u.has 'R'
  let refuse (e : IoError) : Run Nat :=
    complainOf ("cannot remove " ++ quoted name ++ ": " ++ e.reason)
  let done (what : String) : Run Nat := do
    if u.has 'v' then putLine ("removed " ++ what ++ quoted name)
    return 0
  let last := lastName name
  if recursive && (last = "." || last = "..") then
    complainOf ("refusing to remove '.' or '..' directory: skipping " ++ quoted name)
  else
    let t ← files
    match t.place (path name) with
    | .error e => if u.has 'f' && e = .notFound then return 0 else refuse e
    | .ok place =>
      match t.node? place with
      | none => if u.has 'f' then return 0 else refuse .notFound
      | some (.file _) =>
        if (path name).endsInSlash then refuse .notADirectory
        else
          removeAll place
          done ""
      | some .directory =>
        if recursive then
          removeAll place
          done "directory "
        else if u.has 'd' then
          if t.isOccupied place then refuse .notEmpty
          else
            removeAll place
            done "directory "
        else refuse .isADirectory

def rm : Tool := withOptions "dfiIrRv"
  [("recursive", 'r'), ("force", 'f'), ("verbose", 'v'), ("dir", 'd')] 1 fun u => do
  if u.operands.isEmpty then
    if u.has 'f' then return 0 else misused "missing operand" 1
  else forEach u.operands (removeOne u)

/-- Removes an empty directory, and those above it if that is asked for. -/
def removeDirectories (u : Usage) : Nat → String → Run Nat
  | 0, _ => return 0
  | fuel + 1, name => do
    let refuse (e : IoError) : Run Nat :=
      complainOf ("failed to remove " ++ quoted name ++ ": " ++ e.reason)
    let t ← files
    match t.place (path name) with
    | .error e => refuse e
    | .ok place =>
      match t.node? place with
      | none => refuse .notFound
      | some (.file _) => refuse .notADirectory
      | some .directory =>
        if t.isOccupied place then refuse .notEmpty
        else
          removeAll place
          if u.has 'v' then putLine ("rmdir: removing directory, " ++ quoted name)
          if u.has 'p' && name.toList.contains '/' then
            let above := (name.toList.reverse.dropWhile (· ≠ '/')).dropWhile (· = '/')
            if above.isEmpty then return 0
            else removeDirectories u fuel (String.ofList above.reverse)
          else return 0

def rmdir : Tool := withOptions "pv" [("parents", 'p'), ("verbose", 'v')] 1 fun u => do
  if u.operands.isEmpty then misused "missing operand" 1
  else forEach u.operands fun name => removeDirectories u name.length name

/-! ## Making -/

def makeAll (u : Usage) (name : String) : List Path → Run Nat
  | [] => return 0
  | p :: rest => do
    let shownPath := quoted (octets p.text)
    match ← status (octets p.text) with
    | .ok .directory => makeAll u name rest
    | .ok (.file _) =>
      complainOf ("cannot create directory " ++ shownPath ++ ": " ++
        (if rest.isEmpty then IoError.alreadyExists else IoError.notADirectory).reason)
    | .error _ =>
      match ← alterFiles (·.makeDirectory p) with
      | .ok () =>
        if u.has 'v' then putLine ("mkdir: created directory " ++ shownPath)
        makeAll u name rest
      | .error e =>
        complainOf ("cannot create directory " ++ shownPath ++ ": " ++ e.reason)

def mkdir : Tool := withOptions "m:pv"
  [("parents", 'p'), ("verbose", 'v'), ("mode", 'm')] 1 fun u => do
  if u.operands.isEmpty then misused "missing operand" 1
  else forEach u.operands fun name => do
    let p := path name
    if u.has 'p' && !name.isEmpty then makeAll u name (p.above.reverse ++ [Path.ofParts p.parts])
    else match ← alterFiles (·.makeDirectory p) with
      | .ok () =>
        if u.has 'v' then putLine ("mkdir: created directory " ++ quoted name)
        return 0
      | .error e =>
        complainOf ("cannot create directory " ++ quoted name ++ ": " ++ e.reason)

def touch : Tool := withOptions "acd:fhmr:t:" [("no-create", 'c')] 1 fun u => do
  if u.operands.isEmpty then misused "missing file operand" 1
  else forEach u.operands fun name => do
    let refuse (e : IoError) : Run Nat :=
      complainOf ("cannot touch " ++ quoted name ++ ": " ++ e.reason)
    match ← status name with
    | .ok _ => return 0
    | .error e =>
      if u.has 'c' && e = .notFound then return 0
      else match ← alterFiles (·.write (path name) .empty) with
        | .ok () => return 0
        | .error .isADirectory =>
          complainOf ("setting times of " ++ quoted name ++ ": " ++ IoError.notFound.reason)
        | .error e => refuse e

def isMode (word : String) : Bool :=
  let isChange (s : List Char) : Bool :=
    let rest := s.dropWhile "ugoa".toList.contains
    match rest with
    | sign :: rights =>
      "+-=".toList.contains sign && rights.all fun c => "rwxXstugo+-=".toList.contains c
    | [] => false
  if word.toList.all fun c => '0' ≤ c && c ≤ '7' then !word.isEmpty && word.length ≤ 5
  else (splitAt ',' word.toList).all isChange

/-- Words of which the first that takes rights away is no option. -/
def withModeOperand (words : List String) : List String :=
  match words with
  | w :: rest =>
    match w.toList with
    | '-' :: c :: rights => if (c :: rights).all "rwxXst".toList.contains then "--" :: w :: rest
      else words
    | _ => words
  | [] => []

/-- Sets who may run files. -/
def chmod : Tool := fun words => withOptions "cfvR" [("recursive", 'R')] 1 (fun u => do
  match u.operands with
  | [] => misused "missing operand" 1
  | [mode] => misused ("missing operand after " ++ quoted mode) 1
  | mode :: names =>
    let letters := mode.toList
    let isNumber := letters.all Char.isDigit
    let runs := if isNumber then letters.any fun c => (c.toNat - '0'.toNat) % 2 = 1
      else letters.contains 'x' && !letters.contains '-'
    let changesRuns := isNumber || letters.contains 'x'
    if !isMode mode then misused ("invalid mode: " ++ quoted mode) 1
    else forEach names fun name => do
      match ← status name with
      | .error e => complainOf ("cannot access " ++ quoted name ++ ": " ++ e.reason)
      | .ok _ =>
        match (← files).place (path name) with
        | .error _ => return 0
        | .ok place =>
          if changesRuns then
            changes fun w =>
              let others := w.programs.filter (· ≠ place)
              { w with programs := if runs then place :: others else others }
          return 0) (withModeOperand words)

/-! ## Listing -/

def listed (u : Usage) (t : FileTree) (directory : Path) : List String :=
  let names := namesIn t directory
  let names := names.filter fun name =>
    if u.has 'a' then true
    else if u.has 'A' then name ≠ "." && name ≠ ".."
    else !name.startsWith "."
  let sorted := names.mergeSort before
  if u.has 'r' then sorted.reverse else sorted

/-- Shows the names in a directory, and those below it if that is asked for. -/
def listDirectory (u : Usage) : Nat → Bool → Bool → String → Run Unit
  | 0, _, _, _ => return ()
  | fuel + 1, titled, first, name => do
    let t ← files
    if titled then
      if !first then putLine ""
      putLine (shown name ++ ":")
    let names := listed u t (path name)
    for n in names do
      let slash := (u.has 'p' || u.has 'F') && t.isDirectory (path (within name n))
      putLine (if slash then n ++ "/" else n)
    if u.has 'R' then
      for n in names do
        if n ≠ "." && n ≠ ".." && t.isDirectory (path (within name n)) then
          listDirectory u fuel true false (within name n)

def ls : Tool := withOptions "1aAdFlpRrtSU" [("all", 'a'), ("recursive", 'R')] 2 fun u => do
  let t ← files
  let operands := if u.operands.isEmpty then ["."] else u.operands.mergeSort before
  let (found, status) ← operands.foldlM (fun (found, worst) name => do
    match ← status name with
    | .ok node =>
      let entry : String × Bool := (name, node matches .directory)
      return (found ++ [entry], worst)
    | .error e =>
      complain ("cannot access " ++ quoted name ++ ": " ++ e.reason)
      return (found, 2)) (([] : List (String × Bool)), 0)
  let (directories, others) := found.partition fun f => f.2 && !u.has 'd'
  for (name, _) in others do
    let slash := (u.has 'p' || u.has 'F') && t.isDirectory (path name)
    putLine (if slash then name ++ "/" else name)
  for ((name, _), i) in directories.zipIdx do
    let titled := u.has 'R' || 1 < operands.length
    listDirectory u 100 titled (others.isEmpty && i = 0) name
  return status

end TemporalDB.Shell.Tool
