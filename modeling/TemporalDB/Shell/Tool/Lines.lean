import TemporalDB.Shell.Tool.Basic

/-!
# Programs for lines

Taking parts of texts, counting, sorting, comparing and replacing in them. A line ends at a line
feed; the last one may lack it.
-/

namespace TemporalDB.Shell.Tool

open Text

def textOfLines (lines : List (List Char)) (ended : Bool) : List Char :=
  if lines.isEmpty then []
  else
    let s := (lines.map (· ++ ['\n'])).flatten
    if ended then s else s.dropLast

def wholeLines (lines : List (List Char)) : List Char := textOfLines lines true

/-! ## Ends of texts -/

structure Size where
  sign : Option Char
  count : Nat

def size? (word : String) : Option Size :=
  let (sign, digits) := match word.toList with
    | '-' :: ds => (some '-', ds)
    | '+' :: ds => (some '+', ds)
    | ds => (none, ds)
  let factor (ds : List Char) : Option Nat :=
    match ds with
    | [] => some 1
    | ['b'] => some 512
    | ['k'] | ['K'] | ['K', 'i', 'B'] => some 1024
    | ['k', 'B'] | ['K', 'B'] => some 1000
    | ['M'] => some 1048576
    | _ => none
  let ns := digits.takeWhile Char.isDigit
  match readDigits ns, factor (digits.drop ns.length) with
  | some n, some f => some ⟨sign, n * f⟩
  | _, _ => none

def firstOf (bytes : Bool) (n : Size) (s : List Char) : List Char :=
  let (lines, ended) := linesOf s
  if n.sign = some '-' then
    if bytes then s.take (s.length - n.count)
    else wholeLines (lines.take (lines.length - n.count))
  else if bytes then s.take n.count
  else textOfLines (lines.take n.count) (ended || n.count < lines.length)

def lastOf (bytes : Bool) (n : Size) (s : List Char) : List Char :=
  let (lines, ended) := linesOf s
  if n.sign = some '+' then
    if bytes then s.drop (n.count - 1) else textOfLines (lines.drop (n.count - 1)) ended
  else if bytes then s.drop (s.length - n.count)
  else textOfLines (lines.drop (lines.length - n.count)) ended

/-- The words with a size that stands alone behind a dash put as an option. -/
def withSizeOption (words : List String) : List String :=
  match words with
  | w :: rest =>
    match w.toList with
    | '-' :: c :: _ =>
      if c.isDigit then "-n" :: String.ofList (w.toList.drop 1) :: rest else words
    | _ => words
  | [] => []

def endsProgram (part : Bool → Size → List Char → List Char) : Tool := fun words =>
  withOptions "c:n:qvfz" [("lines", 'n'), ("bytes", 'c'), ("quiet", 'q')] 1 (fun u => do
    let bytes := (u.options.filter fun o => o.1 = 'c' || o.1 = 'n').getLast?.map (·.1) = some 'c'
    let given := ((u.options.filter fun o => o.1 = 'c' || o.1 = 'n').getLast?.map (·.2)).getD "10"
    match size? given with
    | none =>
      complain ("invalid number of " ++ (if bytes then "bytes" else "lines") ++ ": " ++
        quoted given)
      return 1
    | some n =>
      let operands := if u.operands.isEmpty then ["-"] else u.operands
      let titled := (1 < operands.length || u.has 'v') && !u.has 'q'
      let (_, status) ← operands.foldlM (fun (first, status) w => do
        let title : Run Unit := do
          if titled then
            let shownName := if w = "-" then "standard input" else w
            putLine ((if first then "" else "\n") ++ "==> " ++ shownName ++ " <==")
        match ← readFile w with
        | .ok content =>
          title
          put (part bytes n (octetsOfBytes content))
          return (false, status)
        | .error .isADirectory =>
          title
          complain ("error reading " ++ quoted w ++ ": " ++ IoError.isADirectory.reason)
          return (false, 1)
        | .error e =>
          complain ("cannot open " ++ quoted w ++ " for reading: " ++ e.reason)
          return (first, 1)) (true, 0)
      return status) (withSizeOption words)

def head : Tool := endsProgram firstOf

def tail : Tool := endsProgram lastOf

/-! ## Counting -/

def wordCount (s : List Char) : Nat :=
  (s.foldl (fun (n, inWord) c =>
    if isSpace c then (n, false) else (if inWord then n else n + 1, true)) (0, false)).1

def countsOf (u : Usage) (s : List Char) : List Nat :=
  let lines := (s.filter (· = '\n')).length
  let longest := ((linesOf s).1.map (·.length)).foldl max 0
  if u.options.isEmpty then [lines, wordCount s, s.length]
  else
    (if u.has 'l' then [lines] else []) ++ (if u.has 'w' then [wordCount s] else []) ++
      (if u.has 'm' then [s.length] else []) ++ (if u.has 'c' then [s.length] else []) ++
      (if u.has 'L' then [longest] else [])

/-- Counts lines, words and bytes. -/
def wc : Tool := withOptions "clLmw"
  [("lines", 'l'), ("words", 'w'), ("bytes", 'c'), ("chars", 'm')] 1 fun u => do
  let words := if u.operands.isEmpty then ["-"] else u.operands
  let mut rows : List (String × List Nat) := []
  let mut status := 0
  let mut unsized := u.operands.isEmpty && (countsOf u []).length ≠ 1
  for w in words do
    match ← readFile w with
    | .ok bytes => rows := rows ++ [(w, countsOf u (octetsOfBytes bytes))]
    | .error e =>
      complain (shown w ++ ": " ++ e.reason)
      status := 1
      if e = .isADirectory then
        rows := rows ++ [(w, countsOf u [])]
        unsized := true
  let columns := (countsOf u []).length
  let total := (List.range columns).map fun i =>
    rows.foldl (fun n row => n + row.2[i]?.getD 0) 0
  -- the width is that of the total number of bytes
  let size := rows.foldl (fun n row => max n (row.2.foldl max 0)) (total.foldl max 0)
  let bytes ← words.foldlM (fun n w => do
    return n + (((← readFile w).toOption).getD .empty).size) 0
  let width := if columns = 1 && words.length = 1 then 1
    else if unsized then 7
    else (Nat.toDigits 10 (max size bytes)).length
  let row (name : String) (counts : List Nat) : String :=
    let cells := counts.map fun n =>
      let ds := Nat.toDigits 10 n
      String.ofList (List.replicate (width - ds.length) ' ' ++ ds)
    String.intercalate " " cells ++ if u.operands.isEmpty then "" else " " ++ name
  for (name, counts) in rows do putLine (row (shown name) counts)
  if 1 < words.length then putLine (row "total" total)
  return status

/-! ## Sorting -/

/-- The number at the front of a text, in thousandths. -/
def leadingValue (s : List Char) : Int :=
  let s := s.dropWhile isSpace
  let (negative, s) := match s with
    | '-' :: rest => (true, rest)
    | _ => (false, s)
  let whole := s.takeWhile Char.isDigit
  let fraction := match s.drop whole.length with
    | '.' :: rest => (rest.takeWhile Char.isDigit).take 9
    | _ => []
  let n := digitsValue (whole ++ fraction ++ List.replicate (9 - fraction.length) '0')
  if negative then -n else n

/-- A key of lines: the fields from one to another and how they are compared. -/
structure Key where
  first : Nat
  last : Option Nat
  letters : List Char

def key? (word : String) : Option Key :=
  let parse (s : List Char) : Option (Nat × List Char) :=
    let ds := s.takeWhile Char.isDigit
    let rest := s.drop ds.length
    let rest := match rest with
      | '.' :: more => more.dropWhile Char.isDigit
      | _ => rest
    (readDigits ds).map fun n => (n, rest)
  match parse word.toList with
  | none | some (0, _) => none
  | some (first, ',' :: rest) => (parse rest).map fun (last, more) => ⟨first, some last, more⟩
  | some (first, more) =>
    let letters := more.takeWhile (· ≠ ',')
    match more.drop letters.length with
    | ',' :: rest => (parse rest).map fun (last, l) => ⟨first, some last, letters ++ l⟩
    | _ => some ⟨first, none, letters⟩

/-- The fields of a line. Without a separator each has the blanks before it. -/
def sortFields (separator : Option Char) (line : List Char) : List (List Char) :=
  match separator with
  | some c => splitAt c line
  | none =>
    let rec go : Nat → List Char → List (List Char)
      | 0, _ | _, [] => []
      | fuel + 1, s =>
        let blanks := s.takeWhile fun c => c = ' ' || c = '\t'
        let word := (s.drop blanks.length).takeWhile fun c => c ≠ ' ' && c ≠ '\t'
        (blanks ++ word) :: go fuel (s.drop (blanks.length + word.length))
    go (line.length + 1) line

def Key.part (k : Key) (separator : Option Char) (line : List Char) : List Char :=
  let fields := sortFields separator line
  let taken := (fields.drop (k.first - 1)).take
    (match k.last with
      | some last => last + 1 - k.first
      | none => fields.length)
  match separator with
  | some c => (taken.intersperse [c]).flatten
  | none => taken.flatten

def compareBy (letters : List Char) (a b : List Char) : Ordering :=
  let trimmed (s : List Char) : List Char := if letters.contains 'b' then s.dropWhile isSpace else s
  let cased (s : List Char) : List Char := if letters.contains 'f' then s.map Char.toUpper else s
  let a := cased (trimmed a)
  let b := cased (trimmed b)
  let order := if letters.contains 'n' || letters.contains 'g' then
      compare (leadingValue a) (leadingValue b)
    else if a < b then .lt else if b < a then .gt else .eq
  if letters.contains 'r' then order.swap else order

def sort : Tool := withOptions "bcdfghik:mMno:rsS:t:T:uVz"
  [("reverse", 'r'), ("unique", 'u'), ("numeric-sort", 'n'), ("key", 'k'), ("output", 'o')] 2
  fun u => do
    let letters := u.options.map (·.1)
    let separator := (u.get? 't').bind (·.toList.head?)
    let keys := (u.options.filter (·.1 = 'k')).filterMap fun o => key? o.2
    let words := if u.operands.isEmpty then ["-"] else u.operands
    let mut text : List (List Char) := []
    for w in words do
      match ← readFile w with
      | .ok bytes => text := text ++ (linesOf (octetsOfBytes bytes)).1
      | .error e =>
        let what := if e = .isADirectory then "read failed: " else "cannot read: "
        complain (what ++ shown w ++ ": " ++ e.reason)
        return 2
    let byKeys (a b : List Char) : Ordering :=
      if keys.isEmpty then compareBy letters a b
      else (keys.map fun k =>
        let ls := if k.letters.isEmpty then letters else k.letters
        compareBy ls (k.part separator a) (k.part separator b)).foldl Ordering.then .eq
    let last (a b : List Char) : Ordering :=
      if u.has 's' || u.has 'u' then .eq
      else if u.has 'r' then compareBy ['r'] a b else compareBy [] a b
    let sorted := text.mergeSort fun a b => (byKeys a b).then (last a b) ≠ .gt
    let lines := if u.has 'u' then
        (sorted.foldl (fun (kept : List (List Char)) line =>
          match kept with
          | previous :: _ => if byKeys previous line = .eq then kept else line :: kept
          | [] => [line]) []).reverse
      else sorted
    if u.has 'c' then
      return if text = sorted then 0 else 1
    match u.get? 'o' with
    | none =>
      put (wholeLines lines)
      return 0
    | some target =>
      match ← alterFiles (·.write (path target) (bytesOfOctets (wholeLines lines))) with
      | .ok () => return 0
      | .error e =>
        complain ("open failed: " ++ shown target ++ ": " ++ e.reason)
        return 2

def runs (same : List Char → List Char → Bool) : List (List Char) → List (List Char × Nat)
  | [] => []
  | line :: rest =>
    match runs same rest with
    | (other, n) :: more =>
      if same line other then (line, n + 1) :: more else (line, 1) :: (other, n) :: more
    | [] => [(line, 1)]

/-- Takes lines that follow each other and are equal together. -/
def uniq : Tool := withOptions "cdDf:is:uw:z"
  [("count", 'c'), ("repeated", 'd'), ("unique", 'u'), ("ignore-case", 'i')] 1 fun u => do
  match ← readFile (u.operands.headD "-") with
  | .error e =>
    complain (shown (u.operands.headD "-") ++ ": " ++ e.reason)
    return 1
  | .ok bytes =>
    let cased (s : List Char) : List Char := if u.has 'i' then s.map Char.toLower else s
    let found := runs (fun a b => cased a = cased b) (linesOf (octetsOfBytes bytes)).1
    let kept := found.filter fun (_, n) =>
      (!u.has 'd' || 1 < n) && (!u.has 'u' || n = 1)
    let lines := kept.map fun (line, n) =>
      if u.has 'c' then
        let ds := Nat.toDigits 10 n
        List.replicate (7 - ds.length) ' ' ++ ds ++ ' ' :: line
      else line
    put (wholeLines lines)
    return 0

/-- Shows files with their last line first. -/
def tac : Tool := withOptions "brs:" [] 1 fun u => do
  let words := if u.operands.isEmpty then ["-"] else u.operands
  forEach words fun w => do
    match ← readFile w with
    | .error e =>
      complain ("failed to open " ++ quoted w ++ " for reading: " ++ e.reason)
      return 1
    | .ok bytes =>
      let (lines, ended) := linesOf (octetsOfBytes bytes)
      match lines.reverse with
      | last :: rest =>
        put (if ended then wholeLines (last :: rest) else last ++ wholeLines rest)
      | [] => pure ()
      return 0

def rev : Tool := withOptions "" [] 1 fun u => do
  let (found, status) ← contents u.operands fun w e => "cannot open " ++ w ++ ": " ++ e.reason
  let (lines, ended) := linesOf (found.flatMap (·.2))
  put (textOfLines (lines.map List.reverse) ended)
  return status

def nl : Tool := withOptions "b:" [] 1 fun u => do
  let (found, status) ← contents u.operands plainComplaint
  let (lines, _) := linesOf (found.flatMap (·.2))
  let all := u.get? 'b' = some "a"
  let (out, _) := lines.foldl (fun (out, n) line =>
    if line.isEmpty && !all then (out ++ [List.replicate 7 ' '], n)
    else
      let ds := Nat.toDigits 10 n
      (out ++ [List.replicate (6 - ds.length) ' ' ++ ds ++ '\t' :: line], n + 1))
    (([] : List (List Char)), 1)
  put (wholeLines out)
  return status

/-! ## Columns -/

abbrev Ranges := List (Nat × Option Nat)

def ranges? (word : String) : Option Ranges :=
  (splitAt ',' word.toList).mapM fun s =>
    let first := s.takeWhile Char.isDigit
    match s.drop first.length with
    | [] => (readDigits first).map fun n => (n, some n)
    | '-' :: last =>
      if first.isEmpty && last.isEmpty then none
      else
        let low := if first.isEmpty then some 1 else readDigits first
        let high : Option (Option Nat) := if last.isEmpty then some none
          else (readDigits last).map some
        low.bind fun l => high.map fun h => (l, h)
    | _ => none

def inRanges (rs : Ranges) (n : Nat) : Bool :=
  rs.any fun (low, high) => low ≤ n && (high.map fun h => decide (n ≤ h)).getD true

def selected {α : Type} (rs : Ranges) (xs : List α) : List α :=
  (xs.zipIdx.filter fun (_, i) => inRanges rs (i + 1)).map (·.1)

/-- Takes columns of lines. -/
def cut : Tool := withOptions "b:c:d:f:ns"
  [("fields", 'f'), ("delimiter", 'd'), ("characters", 'c'), ("bytes", 'b'),
    ("only-delimited", 's')] 1 fun u => do
  let delimiter := (u.get? 'd').getD "\t"
  match u.options.find? fun o => o.1 = 'f' || o.1 = 'c' || o.1 = 'b' with
  | none => misused "you must specify a list of bytes, characters, or fields" 1
  | some (kind, list) =>
    let what := if kind = 'f' then "field" else "byte/character"
    if 1 < delimiter.length then misused "the delimiter must be a single character" 1
    else match ranges? list with
      | none => misused ("invalid " ++ what ++ " value " ++ quoted list) 1
      | some rs =>
        if rs.any fun r => r.1 = 0 then
          misused ((if kind = 'f' then "fields" else "byte/character positions") ++
            " are numbered from 1") 1
        else
          let c := delimiter.toList.headD '\x00'
          let line (s : List Char) : Option (List Char) :=
            if kind = 'f' then
              if s.contains c then some ((selected rs (splitAt c s)).intersperse [c]).flatten
              else if u.has 's' then none else some s
            else some (selected rs s)
          let (found, status) ← contents u.operands plainComplaint
          put (wholeLines ((linesOf (found.flatMap (·.2))).1.filterMap line))
          return status

/-! ## Characters -/

def classChars (name : String) : List Char :=
  ((List.range 256).map Char.ofNat).filter (Member.inClass name)

def charSet : Nat → List Char → List Char
  | 0, _ | _, [] => []
  | fuel + 1, '[' :: ':' :: rest =>
    let name := rest.takeWhile Char.isAlpha
    match rest.drop name.length with
    | ':' :: ']' :: more => classChars (String.ofList name) ++ charSet fuel more
    | _ => '[' :: charSet fuel (':' :: rest)
  | fuel + 1, s =>
    let (c, rest) := match s with
      | '\\' :: more => escape more
      | c :: more => (c, more)
      | [] => ('\x00', [])
    match rest with
    | '-' :: d :: more =>
      let (d, more) := if d = '\\' then escape more else (d, more)
      (List.range (d.toNat + 1 - c.toNat)).map (fun i => Char.ofNat (c.toNat + i)) ++
        charSet fuel more
    | _ => c :: charSet fuel rest

def withoutRuns (set : List Char) : List Char → List Char
  | c :: d :: rest =>
    if c = d && set.contains c then withoutRuns set (d :: rest)
    else c :: withoutRuns set (d :: rest)
  | s => s

/-- Replaces or removes characters. -/
def tr : Tool := withOptions "cCdst"
  [("delete", 'd'), ("squeeze-repeats", 's'), ("complement", 'c')] 1 fun u => do
  let deletes := u.has 'd'
  let squeezes := u.has 's'
  match u.operands with
  | [] => misused "missing operand" 1
  | first :: others =>
    if others.isEmpty && !deletes && !squeezes then
      complain ("missing operand after " ++ quoted first)
      sayLine "Two strings must be given when translating."
      sayHelp
      return 1
    else if 1 < others.length || (deletes && !squeezes && !others.isEmpty) then
      let extra := if 1 < others.length then others[1]?.getD "" else others.headD ""
      misused ("extra operand " ++ quoted extra) 1
    else
      let set := charSet (first.length + 1) first.toList
      let complement := u.has 'c' || u.has 'C'
      let set := if complement then
          ((List.range 256).map Char.ofNat).filter fun c => !set.contains c else set
      let second := others.head?.map fun s => charSet (s.length + 1) s.toList
      let input := octetsOfBytes (((← readFile "-").toOption).getD .empty)
      let translate (s : List Char) (target : List Char) : List Char :=
        match target.getLast? with
        | none => s
        | some last =>
          s.map fun c =>
            match set.reverse.findIdx? (· = c) with
            | none => c
            | some i => target[set.length - 1 - i]?.getD last
      let out :=
        if deletes then
          let kept := input.filter fun c => !set.contains c
          if squeezes then withoutRuns (second.getD []) kept else kept
        else match second with
          | some target =>
            let s := translate input target
            if squeezes then withoutRuns target s else s
          | none => withoutRuns set input
      put out
      return 0

/-- Writes its input to the output and to files. -/
def tee : Tool := withOptions "aip" [("append", 'a')] 1 fun u => do
  let bytes := ((← readFile "-").toOption).getD .empty
  put (octetsOfBytes bytes)
  forEach u.operands fun w => do
    let old := ((← files).read (path w)).toOption.getD .empty
    let before := if u.has 'a' then old else .empty
    if isNull w then return 0
    else match device? w with
      | some stream =>
        let _ ← writeTo stream (octetsOfBytes bytes)
        return 0
      | none =>
        match ← alterFiles (·.write (path w) (before ++ bytes)) with
        | .ok () => return 0
        | .error e =>
          complain (shown w ++ ": " ++ e.reason)
          return 1

end TemporalDB.Shell.Tool
