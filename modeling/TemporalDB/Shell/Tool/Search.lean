import TemporalDB.Shell.Regex
import TemporalDB.Shell.Tool.Lines

/-!
# Programs for expressions

Searching lines by regular expressions, and editing them.
-/

namespace TemporalDB.Shell.Tool

open Text

/-! ## Searching -/

structure Query where
  caseless : Bool
  expressions : List Regex
  wholeLine : Bool
  wholeWord : Bool

def inWord (c : Char) : Bool := c.isAlphanum || c = '_'

def Query.accepts (q : Query) (line : List Char) (s t : Regex.Spot) : Bool :=
  (!q.wholeLine || (s.before.isEmpty && t.after.isEmpty && line.length = t.before.length)) &&
    (!q.wholeWord || (!(s.before.headD ' ' |> inWord) && !(t.after.headD ' ' |> inWord)))

def Query.next (q : Query) (line : List Char) : Nat → Regex.Spot →
    Option (Regex.Spot × Regex.Spot)
  | 0, _ => none
  | fuel + 1, s =>
    let here := q.expressions.filterMap fun r =>
      Regex.Spot.longest ((Regex.ends q.caseless 100000 r s).filter (q.accepts line s))
    match Regex.Spot.longest here with
    | some t => some (s, t)
    | none => if s.after.isEmpty then none else q.next line fuel (s.skip 1)

def Query.matches' (q : Query) (line : List Char) : Nat → Regex.Spot → List (List Char)
  | 0, _ => []
  | fuel + 1, s =>
    match q.next line (line.length + 1) s with
    | none => []
    | some (first, last) =>
      if last.after.length = first.after.length then
        if last.after.isEmpty then [] else q.matches' line fuel (last.skip 1)
      else
        first.after.take (first.after.length - last.after.length) :: q.matches' line fuel last

def literally (s : List Char) : Regex :=
  s.foldr (fun c r => .sequence (.char c) r) .empty

def searchIn (u : Usage) (q : Query) (titled : Bool) (name : String) (text : List Char) :
    Run Bool := do
  let (lines, _) := linesOf text
  let chosen := lines.zipIdx.filter fun (line, _) =>
    (q.next line (line.length + 1) ⟨[], line, []⟩).isSome ≠ u.has 'v'
  let chosen := match (u.get? 'm').bind fun w => readDigits w.toList with
    | some n => chosen.take n
    | none => chosen
  let shownName := if name = "-" then "(standard input)" else name
  let title := if titled then shownName ++ ":" else ""
  if u.has 'q' then pure ()
  else if u.has 'l' then
    if !chosen.isEmpty then putLine shownName
  else if u.has 'L' then
    if chosen.isEmpty then putLine shownName
  else if u.has 'c' then putLine (title ++ showNat chosen.length)
  else
    for (line, i) in chosen do
      let title := title ++ if u.has 'n' then showNat (i + 1) ++ ":" else ""
      if u.has 'o' then
        if !u.has 'v' then
          for found in q.matches' line (line.length + 1) ⟨[], line, []⟩ do
            putLine (title ++ String.ofList found)
      else putLine (title ++ String.ofList line)
  return !chosen.isEmpty

/-- Searches files for lines. -/
def grep (kind : Char) : Tool := withOptions "abce:EFGhHilLm:noqrRsvwxyz"
  [("count", 'c'), ("quiet", 'q'), ("silent", 'q'), ("ignore-case", 'i'), ("invert-match", 'v'),
    ("regexp", 'e'), ("only-matching", 'o'), ("line-number", 'n'), ("fixed-strings", 'F'),
    ("extended-regexp", 'E')] 2 fun u => do
  let given := (u.options.filter (·.1 = 'e')).map (·.2)
  match if given.isEmpty then u.operands.head?.map fun p => [p] else some given with
  | none =>
    sayLine "Usage: grep [OPTION]... PATTERNS [FILE]..."
    sayLine "Try 'grep --help' for more information."
    return 2
  | some patterns =>
    let operands := if given.isEmpty then u.operands.drop 1 else u.operands
    let kind := ((u.options.filter fun o => "EFG".toList.contains o.1).getLast?.map (·.1)).getD kind
    let texts := patterns.flatMap fun p => splitAt '\n' p.toList
    let read (s : List Char) : Except Regex.Fault Regex :=
      if kind = 'F' then .ok (literally s) else Regex.read (kind = 'E') s
    match texts.mapM read with
    | .error fault =>
      complain fault.message
      return 2
    | .ok expressions =>
      let q : Query :=
        { caseless := u.has 'i' || u.has 'y'
          expressions
          wholeLine := u.has 'x'
          wholeWord := u.has 'w' }
      let words := if operands.isEmpty then ["-"] else operands
      let titled := (1 < words.length || u.has 'H') && !u.has 'h'
      let (found, failed) ← words.foldlM (fun (found, failed) w => do
        match ← readFile w with
        | .ok bytes =>
          let here ← searchIn u q titled w (octetsOfBytes bytes)
          return (found || here, failed)
        | .error e =>
          if !u.has 's' then complain (w ++ ": " ++ e.reason)
          return (found, failed || e ≠ .isADirectory)) (false, false)
      return if failed && !(found && u.has 'q') then 2 else if found then 0 else 1

/-! ## Editing -/

/-- A line at which an edit begins or ends. -/
inductive Address where
  | number (n : Nat)
  | last
  | matching (r : Regex)

inductive Action where
  | substitute (r : Regex) (replacement : List Char) (flags : List Char)
  | transliterate (source target : List Char)
  | delete
  | print
  | quit
  | next
  | number
  | append (text : List Char)
  | insert (text : List Char)
  | change (text : List Char)
  | group (edits : Nat)

/-- An edit: its addresses, whether it is for the other lines, and what it does. -/
structure Edit where
  addresses : List Address
  negated : Bool
  action : Action

/-- A complaint about a script and how many characters had been read. -/
structure EditFault where
  left : Nat
  text : String

abbrev EditReading := StateT (List Char) (Except EditFault)

def editFault {α : Type} (text : String) : EditReading α := do throw ⟨(← get).length, text⟩

def delimited (delimiter : Char) (inRegex : Bool) : List Char → Option (List Char × List Char)
  | [] => none
  | '\\' :: c :: rest =>
    (delimited delimiter inRegex rest).map fun (s, rest) =>
      if c = delimiter then (c :: s, rest)
      else if c = 'n' && inRegex then ('\n' :: s, rest)
      else ('\\' :: c :: s, rest)
  | c :: rest =>
    if c = delimiter then some ([], rest)
    else (delimited delimiter inRegex rest).map fun (s, rest) => (c :: s, rest)

def readAddress (extended : Bool) : EditReading (Option Address) := do
  match ← get with
  | '$' :: rest =>
    set rest
    return some .last
  | '/' :: rest =>
    match delimited '/' true rest with
    | none =>
      set ([] : List Char)
      editFault "unterminated address regex"
    | some (text, rest) =>
      set rest
      match Regex.read extended text with
      | .ok r => return some (.matching r)
      | .error fault => editFault fault.message
  | s =>
    let ds := s.takeWhile Char.isDigit
    if ds.isEmpty then return none
    else
      set (s.drop ds.length)
      return some (.number (digitsValue ds))

def skipEditBlanks : EditReading Unit := modify fun s => s.dropWhile isSpace

def readEditText : EditReading (List Char) := do
  let s := (← get).dropWhile fun c => c = ' ' || c = '\t'
  let s := match s with
    | '\\' :: '\n' :: rest => rest
    | '\\' :: rest => rest
    | _ => s
  let rec go : List Char → List Char × List Char
    | [] => ([], [])
    | '\\' :: c :: rest =>
      let (t, rest) := go rest
      (c :: t, rest)
    | '\n' :: rest => ([], rest)
    | c :: rest =>
      let (t, rest) := go rest
      (c :: t, rest)
  let (text, rest) := go s
  set rest
  return text

def readAction (extended : Bool) (c : Char) : EditReading Action := do
  match c with
  | 'd' => return .delete
  | 'p' => return .print
  | 'q' => return .quit
  | 'n' => return .next
  | '=' => return .number
  | 'a' => return .append (← readEditText)
  | 'i' => return .insert (← readEditText)
  | 'c' => return .change (← readEditText)
  | '\x7b' => return .group 0
  | 's' | 'y' =>
    let unterminated : EditReading Action := do
      set ([] : List Char)
      editFault ("unterminated \x60" ++ c.toString ++ "' command")
    match ← get with
    | [] => unterminated
    | delimiter :: rest =>
      match delimited delimiter true rest with
      | none => unterminated
      | some (source, rest) =>
        match delimited delimiter false rest with
        | none => unterminated
        | some (target, rest) =>
          if c = 'y' then
            set rest
            return .transliterate source target
          else
            let flags := rest.takeWhile fun d => "gpiI0123456789".toList.contains d
            set (rest.drop flags.length)
            match Regex.read extended source with
            | .ok r => return .substitute r target flags
            | .error fault => editFault fault.message
  | _ => editFault ("unknown command: \x60" ++ c.toString ++ "'")

def readEdits (extended : Bool) : Nat → Bool → EditReading (List Edit)
  | 0, _ => return []
  | fuel + 1, inGroup => do
    modify fun s => s.dropWhile fun c => isSpace c || c = ';'
    if (← get).isEmpty then
      if inGroup then editFault "unmatched \x60\x7b'" else return []
    else
      let first ← readAddress extended
      let comma := first.isSome && (← get).head? = some ','
      if comma then modify (·.drop 1)
      let second ← if comma then readAddress extended else pure none
      skipEditBlanks
      let negated := (← get).head? = some '!'
      if negated then
        modify (·.drop 1)
        skipEditBlanks
      match ← get with
      | [] => editFault "missing command"
      | '\x7d' :: rest =>
        set rest
        if inGroup then return [] else editFault "unexpected \x60\x7d'"
      | '#' :: rest =>
        set (rest.dropWhile (· ≠ '\n'))
        readEdits extended fuel inGroup
      | c :: rest =>
        set rest
        let action ← readAction extended c
        let addresses := first.toList ++ second.toList
        match action with
        | .group _ =>
          let inner ← readEdits extended fuel true
          let others ← readEdits extended fuel inGroup
          return ⟨addresses, negated, .group inner.length⟩ :: inner ++ others
        | _ =>
          modify fun s => s.dropWhile fun d => d = ' '
          let s ← get
          let ended := match action with
            | .append _ | .insert _ | .change _ => true
            | _ => (s.head?.map fun d => d = ';' || d = '\n' || d = '\x7d' || d = '#').getD true
          if !ended then
            modify (·.drop 1)
            match action with
            | .substitute .. => editFault "unknown option to \x60s'"
            | _ => editFault "extra characters after command"
          return ⟨addresses, negated, action⟩ :: (← readEdits extended fuel inGroup)

/-- The state of editing. -/
structure Editor where
  /-- The line, and its number. -/
  line : List Char
  number : Nat
  /-- The lines that follow, and whether the last one has an end. -/
  rest : List (List Char)
  ended : Bool
  /-- What is written, the last first. -/
  out : List (List Char)
  /-- What is written behind the line. -/
  queue : List (List Char)
  /-- The edits by their places that are within their two addresses. -/
  active : List Nat
  /-- Whether the line is left without being shown, and whether all ends. -/
  deleted : Bool
  quits : Bool

namespace Editor

def isAt (ed : Editor) : Address → Bool
  | .number n => ed.number = n
  | .last => ed.rest.isEmpty
  | .matching r => (Regex.find false r ed.line).isSome

def selects (ed : Editor) (index : Nat) (e : Edit) : Bool × Editor :=
  let (found, ed) := match e.addresses with
    | [] => (true, ed)
    | [a] => (ed.isAt a, ed)
    | a :: b :: _ =>
      if ed.active.contains index then
        let isLast : Bool := match b with
          | .number n => n ≤ ed.number
          | b => ed.isAt b
        (true, if isLast then { ed with active := ed.active.filter (· ≠ index) } else ed)
      else if ed.isAt a then
        let isLast : Bool := match b with
          | .number n => n ≤ ed.number
          | .last => ed.rest.isEmpty
          | .matching _ => false
        (true, if isLast then ed else { ed with active := index :: ed.active })
      else (false, ed)
  (found ≠ e.negated, ed)

def replacement (matched : List Char) (groups : List (Nat × List Char)) : List Char → List Char
  | [] => []
  | '\\' :: c :: rest =>
    let here := if c = '0' then matched
      else if c.isDigit then
        ((groups.find? (·.1 = c.toNat - '0'.toNat)).map (·.2)).getD []
      else if c = 'n' then ['\n'] else if c = 't' then ['\t'] else [c]
    here ++ replacement matched groups rest
  | '&' :: rest => matched ++ replacement matched groups rest
  | c :: rest => c :: replacement matched groups rest

/-- A text with matches replaced, from the one of a number on. -/
def substituted (r : Regex) (text flags : List Char) : Nat → Nat → Regex.Spot →
    List Char × Bool
  | 0, _, s => (s.after, false)
  | fuel + 1, left, s =>
    let caseless := flags.contains 'i' || flags.contains 'I'
    match Regex.search caseless r (s.after.length + 1) s with
    | none => (s.after, false)
    | some (first, last) =>
      let before := s.after.take (s.after.length - first.after.length)
      let matched := first.after.take (first.after.length - last.after.length)
      let replaces : Bool := left ≤ 1
      let new := if replaces then replacement matched last.groups text else matched
      let on := !replaces || flags.contains 'g'
      let last : Regex.Spot := { last with groups := [] }
      if !on then (before ++ new ++ last.after, true)
      else if matched.isEmpty then
        match last.after with
        | [] => (before ++ new, replaces)
        | c :: _ =>
          let (rest, more) := substituted r text flags fuel (left - 1) (last.skip 1)
          (before ++ new ++ c :: rest, replaces || more)
      else
        let (rest, more) := substituted r text flags fuel (left - 1) last
        (before ++ new ++ rest, replaces || more)

def shows (ed : Editor) : Editor := { ed with out := ed.line :: ed.out }

def advance (silent : Bool) (ed : Editor) : Editor :=
  match ed.rest with
  | [] => { ed with quits := true }
  | line :: rest =>
    let ed := if silent then ed else ed.shows
    { ed with line, rest, number := ed.number + 1, out := ed.queue.reverse ++ ed.out, queue := [] }

/-- The state after an edit that is for the line. -/
def apply (silent : Bool) (ed : Editor) : Action → Editor
  | .substitute r text flags =>
    let nth := (readDigits (flags.filter Char.isDigit)).getD 1
    let (line, done) := substituted r text flags (ed.line.length + 2) nth ⟨[], ed.line, []⟩
    let ed := { ed with line }
    if done && flags.contains 'p' then ed.shows else ed
  | .transliterate source target =>
    { ed with line := ed.line.map fun c =>
        match source.findIdx? (· = c) with
        | some i => target[i]?.getD c
        | none => c }
  | .delete => { ed with deleted := true }
  | .print => ed.shows
  | .quit => { ed with quits := true }
  | .next => ed.advance silent
  | .number => { ed with out := (showNat ed.number).toList :: ed.out }
  | .append text => { ed with queue := ed.queue ++ [text] }
  | .insert text => { ed with out := text :: ed.out }
  | .change text => { ed with out := text :: ed.out, deleted := true }
  | .group _ => ed

def applyAll (silent : Bool) : Nat → Nat → List Edit → Editor → Editor
  | 0, _, _, ed | _, _, [], ed => ed
  | fuel + 1, index, e :: es, ed =>
    if ed.deleted || ed.quits then ed
    else
      let (found, ed) := ed.selects index e
      match e.action with
      | .group n =>
        if found then applyAll silent fuel (index + 1) es ed
        else applyAll silent fuel (index + 1 + n) (es.drop n) ed
      | action =>
        applyAll silent fuel (index + 1) es (if found then ed.apply silent action else ed)

def all (silent : Bool) (edits : List Edit) : Nat → Editor → Editor
  | 0, ed => ed
  | fuel + 1, ed =>
    match ed.rest with
    | [] => ed
    | line :: rest =>
      let ed := { ed with line, rest, number := ed.number + 1, deleted := false }
      let ed := applyAll silent (edits.length + 1) 0 edits ed
      let ed := if silent || ed.deleted then ed else ed.shows
      let ed := { ed with out := ed.queue.reverse ++ ed.out, queue := [] }
      if ed.quits then ed else all silent edits fuel ed

end Editor

def edited (silent : Bool) (edits : List Edit) (text : List Char) : List Char :=
  let (lines, ended) := linesOf text
  let ed : Editor := ⟨[], 0, lines, ended, [], [], [], false, false⟩
  let ed := Editor.all silent edits (lines.length + 1) ed
  textOfLines ed.out.reverse (ended || !ed.rest.isEmpty)

def sed : Tool := withOptions "Ee:ilnrsuz"
  [("quiet", 'n'), ("silent", 'n'), ("expression", 'e'), ("regexp-extended", 'E'),
    ("in-place", 'i')] 1 fun u => do
  let given := (u.options.filter (·.1 = 'e')).map (·.2)
  match if given.isEmpty then u.operands.head?.map fun s => [s] else some given with
  | none => misused "no script specified" 1
  | some scripts =>
    let operands := if given.isEmpty then u.operands.drop 1 else u.operands
    let script := (String.intercalate "\n" scripts).toList
    let extended := u.has 'E' || u.has 'r'
    match (readEdits extended (script.length + 2) false).run script with
    | .error fault =>
      complain ("-e expression #1, char " ++ showNat (script.length - fault.left) ++ ": " ++
        fault.text)
      return 1
    | .ok (edits, _) =>
      let complaint (w : String) (e : IoError) : String :=
        if e = .isADirectory then "couldn't edit " ++ w ++ ": not a regular file"
        else "can't read " ++ w ++ ": " ++ e.reason
      if u.has 'i' then
        forEach operands fun w => do
          match ← readFile w with
          | .error e =>
            complain (complaint w e)
            return 2
          | .ok bytes =>
            let text := edited (u.has 'n') edits (octetsOfBytes bytes)
            let _ ← alterFiles (·.write (path w) (bytesOfOctets text))
            return 0
      else
        let (found, status) ← contents operands complaint
        put (edited (u.has 'n') edits (found.flatMap (·.2)))
        return if status = 0 then 0 else 2

end TemporalDB.Shell.Tool
