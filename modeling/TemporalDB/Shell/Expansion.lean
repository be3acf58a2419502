import TemporalDB.Shell.Arithmetic
import TemporalDB.Shell.Field
import TemporalDB.Shell.Machine

/-!
# What words stand for

The parts of a word are replaced by what they stand for: the values of parameters, the output of
commands, the values of arithmetic expressions. The result is split into fields, or taken as a
whole.
-/

namespace TemporalDB.Shell

open Text

abbrev Capture := Command → Run (List Char)

structure Place where
  /-- Whether the word is split into fields. -/
  splits : Bool
  /-- Whether the word stands within quotes. -/
  quoted : Bool
  /-- Whether the word belongs to a parameter. -/
  nested : Bool
  /-- Whether the word is a value that is assigned. -/
  assigned : Bool

namespace Place

def argument : Place := ⟨true, false, false, false⟩

def whole : Place := ⟨false, false, false, false⟩

def value : Place := ⟨false, false, false, true⟩

def document : Place := ⟨false, true, false, false⟩

end Place

def cellsOf (quoted : Bool) (s : String) : List Cell := s.toList.map (.char · quoted)

def joinedCells (quoted : Bool) (between : List Cell) (texts : List String) : List Cell :=
  (texts.map (cellsOf quoted)).intersperse between |>.flatten

/-- The value of a parameter, as a stretch; without a value there is none. -/
def valueOf (place : Place) (quoted : Bool) (name : String) : Run (Option Stretch) := do
  if name = "@" || name = "*" then
    let texts ← asks (·.parameters)
    let first := cellsOf quoted (String.ofList ((← separators).toList.take 1))
    if name = "@" && quoted && place.splits then
      return some ⟨if texts.isEmpty then .nowhere else .atGaps, joinedCells true [.gap] texts⟩
    else if quoted then return some (.fixed (joinedCells true first texts))
    else if place.splits then return some ⟨.atSeparators, joinedCells false [.gap] texts⟩
    else return some (.fixed (joinedCells false first texts))
  else
    return (← parameter? name).map fun s =>
      ⟨if quoted then .nowhere else .atSeparators, cellsOf quoted s⟩

def failUnset {α : Type} (name : String) (emptyIsNone : Bool) (message : Option String) :
    Run α :=
  match message with
  | some text => fail (name ++ ": " ++ text)
  | none => fail (name ++ ": parameter not set" ++ if emptyIsNone then " or null" else "")

/-- The value of an arithmetic expression. Assignments in it take place. -/
def arithmeticValue (text : List Char) : Run String := do
  let m ← get
  let valueOf (name : String) : String :=
    ((m.session.bindings.find? (·.1 = name)).bind (·.2.value)).getD ""
  match Arithmetic.value text valueOf with
  | .error (.notANumber s) => failNumber s
  | .error (.malformed what) =>
    fail ("arithmetic expression: " ++ what ++ ": \"" ++ String.ofList text ++ "\"")
  | .ok (n, assigned) =>
    for (name, value) in assigned do assign name value
    return showInt n.toInt

def readTilde (place : Place) : List Part → Option (List Char × List Part)
  | [] => some ([], [])
  | .char '/' quoted :: rest => some ([], .char '/' quoted :: rest)
  | .char c false :: rest =>
    if c = ':' && place.assigned then some ([], .char c false :: rest)
    else (readTilde place rest).map fun (name, rest) => (c :: name, rest)
  | _ => none

def homeOf (name : List Char) : Run (Option String) := do
  if name.isEmpty then value? "HOME"
  else return if String.ofList name = "root" then some "/root" else none

def trimmedOutput (s : List Char) : String :=
  String.ofList ((s.filter (· ≠ '\x00')).reverse.dropWhile (· = '\n')).reverse

def checkName (name : String) : Run Unit := do
  if !isName name.toList then fail (name ++ ": bad variable name")

mutual

/-- The stretches that parts stand for, behind others, of which the last comes first. -/
def expandParts (capture : Capture) (place : Place) :
    Nat → Bool → Bool → List Part → List Stretch → Run (List Stretch)
  | 0, _, _, _, done => return done.reverse
  | fuel + 1, inQuotes, mayTilde, parts, done => do
    let quoted := place.quoted || inQuotes
    match parts with
    | [] => return done.reverse
    | .mark :: rest =>
      match inQuotes, rest with
      | false, .parameter ['@'] .plain _ _ :: .mark :: rest =>
        let w ← expandParameter capture place fuel true ['@'] .plain false []
        expandParts capture place fuel false false rest (w.reverse ++ done)
      | _, _ => expandParts capture place fuel (!inQuotes) false rest (.fixed [.mark] :: done)
    | .char c escaped :: rest =>
      match if c = '~' && !escaped && !inQuotes && mayTilde then readTilde place rest else none with
      | some (name, after) =>
        match ← homeOf name with
        | some home =>
          expandParts capture place fuel inQuotes false after
            (.fixed (cellsOf true home) :: done)
        | none =>
          expandParts capture place fuel inQuotes false rest (.fixed [.char c escaped] :: done)
      | none =>
        let splits := place.nested && !quoted && !escaped
        let run := parts.takeWhile fun
          | .char d alsoEscaped =>
            alsoEscaped = escaped && !(place.assigned && d = ':' && !alsoEscaped)
          | _ => false
        let run := if run.isEmpty then parts.take 1 else run
        let cells := run.filterMap fun
          | .char d alsoEscaped => some (Cell.char d alsoEscaped)
          | _ => none
        let rest := parts.drop run.length
        let afterColon := place.assigned && c = ':' && !escaped
        expandParts capture place fuel inQuotes afterColon rest
          (⟨if splits then .atSeparators else .nowhere, cells⟩ :: done)
    | .parameter name form emptyIsNone word :: rest =>
      let w ← expandParameter capture place fuel quoted name form emptyIsNone word
      expandParts capture place fuel inQuotes false rest (w.reverse ++ done)
    | .output body :: rest =>
      let text := trimmedOutput (← capture body)
      let splitting : Splitting := if quoted then .nowhere else .atSeparators
      expandParts capture place fuel inQuotes false rest
        (⟨splitting, cellsOf quoted text⟩ :: done)
    | .arithmetic body :: rest =>
      let w ← expandParts capture { Place.whole with quoted := true } fuel false false body []
      let text ← arithmeticValue (wholeText w).toList
      let splitting : Splitting := if quoted then .nowhere else .atSeparators
      expandParts capture place fuel inQuotes false rest
        (⟨splitting, cellsOf quoted text⟩ :: done)

def expandParameter (capture : Capture) (place : Place) :
    Nat → Bool → List Char → Form → Bool → List Part → Run (List Stretch)
  | 0, _, _, _, _, _ => return []
  | fuel + 1, quoted, name, form, emptyIsNone, word => do
    let name := String.ofList name
    let found ← valueOf place quoted name
    let present := found.filter fun s => !(emptyIsNone && s.cells.isEmpty)
    let nested (place : Place) : Run (List Stretch) :=
      expandParts capture place fuel false true word []
    let inPlace : Place := { place with quoted, nested := true }
    let required : Run Stretch := do
      match found with
      | some s => return s
      | none => if ← isSet 'u' then failUnset name false none else return .fixed []
    match form with
    | .bad => fail "Bad substitution"
    | .plain => return [← required]
    | .length =>
      let n := (← required).cells.length
      return [⟨if quoted then .nowhere else .atSeparators, cellsOf quoted (showNat n)⟩]
    | .orElse =>
      match present with
      | some s => return [s]
      | none => nested inPlace
    | .instead => if present.isSome then nested inPlace else return []
    | .assign =>
      match present with
      | some s => return [s]
      | none =>
        let value := wholeText (← nested { Place.whole with nested := true })
        checkName name
        assign name value
        return ((← valueOf place quoted name).map fun s => [s]).getD []
    | .complain =>
      match present with
      | some s => return [s]
      | none =>
        let message ← if word.isEmpty then pure none
          else some <$> (wholeText <$> nested { Place.whole with nested := true })
        failUnset name emptyIsNone message
    | .trim t =>
      let value ← required
      -- without a value the pattern stands for nothing
      if found.isNone then return [value]
      else
        let pattern := Pattern.read ((← nested Place.whole).flatMap fun s => charsOf s.cells)
        let text := String.ofList (t.apply pattern (textOf value.cells))
        return [⟨value.splitting, cellsOf quoted text⟩]

end

def manySteps : Nat := 1000000

def stretches (capture : Capture) (place : Place) (w : List Part) : Run (List Stretch) :=
  expandParts capture place manySteps false true w []

def fieldsOf (capture : Capture) (w : List Part) : Run (List String) := do
  let fields := splitFields (← separators) none (← stretches capture .argument w)
  if ← isSet 'f' then return fields.map fun field => String.ofList (textOf field)
  else return fields.flatMap (filesOf (← files))

def fieldsOfAll (capture : Capture) (ws : List (List Part)) : Run (List String) := do
  let fields ← ws.mapM (fieldsOf capture)
  return fields.flatten

def textOfWord (capture : Capture) (place : Place) (w : List Part) : Run String :=
  return wholeText (← stretches capture place w)

def patternOf (capture : Capture) (w : List Part) : Run Pattern := do
  return Pattern.read ((← stretches capture .whole w).flatMap fun s => charsOf s.cells)

end TemporalDB.Shell
