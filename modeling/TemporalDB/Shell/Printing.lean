import TemporalDB.Binary64
import TemporalDB.Shell.Number
import TemporalDB.Text.Octet

/-!
# Formats

`echo` writes its words and `printf` puts its words into a format. Both replace backslashes and
what follows them. `printf` goes through its format until its words are used up.
-/

namespace TemporalDB.Shell

open Text

/-! ## Backslashes -/

/-- The character that up to three octal digits stand for, and what follows them. -/
def octal (s : List Char) : Char × List Char :=
  let ds := (s.take 3).takeWhile fun c => '0' ≤ c && c ≤ '7'
  (Char.ofNat (ds.foldl (fun n d => n * 8 + digitValue d) 0 % 256), s.drop ds.length)

/-- The character that a backslash and another one stand for. -/
def control? : Char → Option Char
  | 'a' => some '\x07'
  | 'b' => some '\x08'
  | 'e' => some '\x1B'
  | 'f' => some '\x0C'
  | 'n' => some '\n'
  | 'r' => some '\r'
  | 't' => some '\t'
  | 'v' => some '\x0B'
  | '\\' => some '\\'
  | _ => none

/-- The character that what follows a backslash stands for, and what follows that. Anything without
a meaning leaves the backslash as it is. -/
def escape (s : List Char) : Char × List Char :=
  match s with
  | [] => ('\\', [])
  | c :: rest =>
    if '0' ≤ c && c ≤ '7' then octal s
    else match control? c with
      | some d => (d, rest)
      | none => ('\\', s)

/-- A text with what its backslashes stand for. Octal digits may follow a zero of their own. The
truth value tells whether writing goes on afterwards. -/
def unescape : Nat → List Char → List Char × Bool
  | 0, _ | _, [] => ([], true)
  | _ + 1, '\\' :: 'c' :: _ => ([], false)
  | fuel + 1, '\\' :: rest =>
    let (c, rest) := match rest with
      | '0' :: ds => octal ds
      | _ => escape rest
    let (s, on) := unescape fuel rest
    (c :: s, on)
  | fuel + 1, c :: rest =>
    let (s, on) := unescape fuel rest
    (c :: s, on)

def echoed (words : List String) : List Char :=
  let (newline, words) := match words with
    | "-n" :: rest => (false, rest)
    | _ => (true, words)
  let s := (String.intercalate " " words).toList
  let (s, on) := unescape s.length s
  if newline && on then s ++ ['\n'] else s

/-! ## Conversions -/

/-- How a word is put into a format. -/
structure Conversion where
  /-- To the left of its width. -/
  left : Bool
  /-- With a plus sign. -/
  plus : Bool
  /-- With a blank where a sign could be. -/
  blank : Bool
  /-- In the form that tells more. -/
  marked : Bool
  /-- With zeros in front. -/
  zeros : Bool
  width : Nat
  precision : Option Nat

namespace Conversion

def padded (c : Conversion) (s : List Char) : List Char :=
  let blanks := List.replicate (c.width - s.length) ' '
  if c.left then s ++ blanks else blanks ++ s

def signed (c : Conversion) (sign digits : List Char) (mayZeros : Bool) : List Char :=
  if c.zeros && mayZeros && !c.left then
    sign ++ List.replicate (c.width - sign.length - digits.length) '0' ++ digits
  else c.padded (sign ++ digits)

def sign (c : Conversion) (negative : Bool) : List Char :=
  if negative then ['-'] else if c.plus then ['+'] else if c.blank then [' '] else []

def text (c : Conversion) (s : List Char) : List Char :=
  c.padded (match c.precision with
    | some n => s.take n
    | none => s)

def digits (c : Conversion) (base n : Nat) : List Char :=
  let least := c.precision.getD 1
  let ds := if n = 0 then [] else Nat.toDigits base n
  List.replicate (least - ds.length) '0' ++ ds

def integer (c : Conversion) (n : Int) : List Char :=
  c.signed (c.sign (n < 0)) (c.digits 10 n.natAbs) c.precision.isNone

def natural (c : Conversion) (letter : Char) (n : Nat) : List Char :=
  let plain := c.precision.isNone
  match letter with
  | 'o' =>
    let ds := c.digits 8 n
    c.signed [] (if c.marked && ds.head? ≠ some '0' then '0' :: ds else ds) plain
  | 'x' => c.signed (if c.marked && n ≠ 0 then ['0', 'x'] else []) (c.digits 16 n) plain
  | 'X' =>
    c.signed (if c.marked && n ≠ 0 then ['0', 'X'] else [])
      ((c.digits 16 n).map Char.toUpper) plain
  | _ => c.signed [] (c.digits 10 n) plain

def positional (c : Conversion) (num den places : Nat) : List Char :=
  let ds := zeroPadded (places + 1) (Binary64.nearest (num * powerOfTen places) den)
  let whole := ds.take (ds.length - places)
  if places = 0 then (if c.marked then whole ++ ['.'] else whole)
  else whole ++ '.' :: ds.drop (ds.length - places)

def firstPlace (num den : Nat) : Int :=
  if den ≤ num then (Nat.toDigits 10 (num / den)).length - 1
  else
    let n : Nat := (Nat.toDigits 10 (den / num)).length
    -- the quotient is one too many if it is exact
    if den ≤ num * powerOfTen (n - 1) then -((n : Int) - 1) else -n

/-- A ratio as so many digits, of which the first has a place. -/
def significant (num den count : Nat) : Nat × Int :=
  if num = 0 then (0, 0)
  else
    let place := firstPlace num den
    let shift : Int := count - 1 - place
    let n := if 0 ≤ shift then Binary64.nearest (num * powerOfTen shift.natAbs) den
      else Binary64.nearest num (den * powerOfTen shift.natAbs)
    if n = powerOfTen count then (n / 10, place + 1) else (n, place)

def scientific (c : Conversion) (num den places : Nat) : List Char :=
  let (n, place) := significant num den (places + 1)
  let ds := zeroPadded (places + 1) n
  let point := if places = 0 && !c.marked then [] else '.' :: ds.drop 1
  ds.take 1 ++ point ++ ['e', if place < 0 then '-' else '+'] ++ zeroPadded 2 place.natAbs

def withoutZeros (s : List Char) : List Char :=
  let (mantissa, exponent) := (s.takeWhile (· ≠ 'e'), s.dropWhile (· ≠ 'e'))
  if mantissa.contains '.' then
    let kept := mantissa.reverse.dropWhile (· = '0')
    (match kept with
      | '.' :: rest => rest.reverse
      | _ => kept.reverse) ++ exponent
  else s

/-- A ratio, with an exponent if it is very great or very small. -/
def general (c : Conversion) (num den : Nat) : List Char :=
  let count := max (c.precision.getD 6) 1
  let place := (significant num den count).2
  let s := if -4 ≤ place && place < count then c.positional num den (count - 1 - place).toNat
    else c.scientific num den (count - 1)
  if c.marked then s else withoutZeros s

def real (c : Conversion) (letter : Char) (x : Binary64) : List Char :=
  let cased (s : List Char) : List Char := if letter.isUpper then s.map Char.toUpper else s
  match x with
  | .nan => cased (c.padded (c.sign false ++ "nan".toList))
  | .infinity negative => cased (c.padded (c.sign negative ++ "inf".toList))
  | .finite negative significand exponent =>
    let (num, den) := Binary64.ratio significand exponent
    let places := c.precision.getD 6
    let s := match letter.toLower with
      | 'f' => c.positional num den places
      | 'e' => c.scientific num den places
      | _ => c.general num den
    cased (c.signed (c.sign negative) s true)

end Conversion

/-! ## Words as numbers -/

/-- What is wrong with a word that should be a number. -/
inductive WordFault where
  | noNumber
  /-- Something follows the number. -/
  | onlyPartly
  | outOfRange

/-- A value that a word gives, and what is wrong with the word. -/
structure Given (α : Type) where
  value : α
  fault : Option (String × WordFault)

/-- What is said of a word of which so much is left when a number has been read. -/
def wordFault (word : String) (rest : List Char) (fits : Bool) : Option (String × WordFault) :=
  if rest.isEmpty then if fits then none else some (word, .outOfRange)
  else if rest = word.toList then some (word, .noNumber)
  else some (word, .onlyPartly)

/-- The number of a word that begins with a quote: that of the next character. -/
def quotedNumber? (word : String) : Option Nat :=
  match word.toList with
  | c :: rest => if c = '\'' || c = '"' then some ((rest.headD '\x00').toNat) else none
  | [] => none

def givenInteger (word : String) : Given Int :=
  match quotedNumber? word with
  | some n => ⟨n, none⟩
  | none =>
    match leadingInteger true word.toList with
    | none => ⟨0, wordFault word word.toList true⟩
    | some (n, rest) =>
      let m := (clamped n).toInt
      ⟨m, wordFault word rest (m = n)⟩

/-- The natural number of 64 bits that a word gives; a negative one counts from the end. -/
def givenNatural (word : String) : Given Nat :=
  match quotedNumber? word with
  | some n => ⟨n, none⟩
  | none =>
    match leadingInteger true word.toList with
    | none => ⟨0, wordFault word word.toList true⟩
    | some (n, rest) =>
      if n.natAbs < bound64 then
        ⟨(n % (bound64 : Int)).toNat, wordFault word rest true⟩
      else ⟨bound64 - 1, wordFault word rest false⟩

/-- The text without a word in front of it, in whatever case. -/
def afterWord? (word : String) (s : List Char) : Option (List Char) :=
  if (s.take word.length).map Char.toLower = word.toList then some (s.drop word.length) else none

def leadingExponent (s : List Char) : Int × List Char :=
  match s with
  | e :: rest =>
    let digits := match rest with
      | '+' :: ds => ds
      | '-' :: ds => ds
      | ds => ds
    match if e = 'e' || e = 'E' then digitsIn? 10 digits else none with
    | some (n, after) => (if rest.head? = some '-' then -n else n, after)
    | none => (0, s)
  | [] => (0, s)

/-- The binary number at the front of a text, and what follows it. -/
def leadingReal? (s : List Char) : Option (Binary64 × List Char) :=
  let (negative, body) := match s.dropWhile isSpace with
    | '-' :: rest => (true, rest)
    | '+' :: rest => (false, rest)
    | rest => (false, rest)
  match afterWord? "infinity" body, afterWord? "inf" body, afterWord? "nan" body with
  | some rest, _, _ | _, some rest, _ => some (.infinity negative, rest)
  | _, _, some rest => some (.nan, rest)
  | _, _, _ =>
    let whole := body.takeWhile Char.isDigit
    let rest := body.drop whole.length
    let fraction := if rest.head? = some '.' then (rest.drop 1).takeWhile Char.isDigit else []
    if whole.isEmpty && fraction.isEmpty then none
    else
      let rest := if rest.head? = some '.' then rest.drop (fraction.length + 1) else rest
      let (exponent, rest) := leadingExponent rest
      some (.ofDecimal negative (digitsValue (whole ++ fraction)) (exponent - fraction.length),
        rest)

def givenReal (word : String) : Given Binary64 :=
  match quotedNumber? word with
  | some n => ⟨.ofInt n, none⟩
  | none =>
    match leadingReal? word.toList with
    | none => ⟨.zero false, wordFault word word.toList true⟩
    | some (x, rest) => ⟨x, wordFault word rest true⟩

/-! ## Formats -/

inductive FormatFault where
  /-- A directive has a letter without a meaning. -/
  | badDirective (directive : String)
  /-- A directive has no letter. -/
  | noLetter

/-- The state of going through a format. -/
structure Printer where
  /-- What is written, the last character first. -/
  written : List Char
  words : List String
  faults : List (String × WordFault)
  /-- Why the format itself is wrong. -/
  failure : Option FormatFault
  /-- Whether a word has ended the writing. -/
  stopped : Bool

namespace Printer

def next (p : Printer) : Option String × Printer :=
  (p.words.head?, { p with words := p.words.drop 1 })

def write (p : Printer) (s : List Char) : Printer :=
  { p with written := s.reverse ++ p.written }

def note (p : Printer) (fault : Option (String × WordFault)) : Printer :=
  { p with faults := p.faults ++ fault.toList }

def given {α : Type} (p : Printer) (none : α) (read : String → Given α) : α × Printer :=
  match p.next with
  | (.some word, p) =>
    let g := read word
    (g.value, p.note g.fault)
  | (.none, p) => (none, p)

/-- Writes the next word as a conversion of a letter says. `directive` is the text of it. -/
def convert (p : Printer) (c : Conversion) (letter : Char) (directive : List Char) : Printer :=
  if letter = 's' then
    let (word, p) := p.next
    p.write (c.text (word.getD "").toList)
  else if letter = 'b' then
    let (word, p) := p.next
    let s := (word.getD "").toList
    let (s, on) := unescape s.length s
    { p.write (c.text s) with stopped := !on }
  else if letter = 'c' then
    let (word, p) := p.next
    p.write (c.padded [(word.getD "").toList.headD '\x00'])
  else if letter = 'd' || letter = 'i' then
    let (n, p) := p.given 0 givenInteger
    p.write (c.integer n)
  else if "ouxX".toList.contains letter then
    let (n, p) := p.given 0 givenNatural
    p.write (c.natural letter n)
  else if "fFeEgGaA".toList.contains letter then
    let (x, p) := p.given (.zero false) givenReal
    p.write (c.real letter x)
  else { p with failure := some (.badDirective (String.ofList directive)) }

/-- A number in a directive: digits, or a star for the next word. -/
def number (p : Printer) (s : List Char) : Option Int × List Char × Printer :=
  match s with
  | '*' :: rest =>
    let (n, p) := p.given 0 givenInteger
    (some n, rest, p)
  | _ =>
    let ds := s.takeWhile Char.isDigit
    (if ds.isEmpty then none else some (digitsValue ds), s.drop ds.length, p)

/-- Goes on behind a percent sign. Gives what follows the directive. -/
def directive (p : Printer) (s : List Char) : Printer × List Char :=
  let flags := s.takeWhile fun c => "#-+ 0".toList.contains c
  let (width, rest, p) := p.number (s.drop flags.length)
  let (precision, rest, p) := match rest with
    | '.' :: rest =>
      let (n, rest, p) := p.number rest
      (some (n.getD 0), rest, p)
    | _ => (none, rest, p)
  let width := width.getD 0
  let c : Conversion :=
    { left := flags.contains '-' || width < 0
      plus := flags.contains '+'
      blank := flags.contains ' '
      marked := flags.contains '#'
      zeros := flags.contains '0'
      width := width.natAbs
      precision := (precision.filter (0 ≤ ·)).map Int.toNat }
  match rest with
  | [] => ({ p with failure := some .noLetter }, [])
  | letter :: rest =>
    (p.convert c letter ('%' :: s.take (s.length - rest.length)), rest)

def once : Nat → List Char → Printer → Printer
  | 0, _, p | _, [], p => p
  | fuel + 1, '\\' :: rest, p =>
    let (c, rest) := escape rest
    once fuel rest (p.write [c])
  | fuel + 1, '%' :: '%' :: rest, p => once fuel rest (p.write ['%'])
  | fuel + 1, '%' :: rest, p =>
    let (p, rest) := p.directive rest
    if p.stopped || p.failure.isSome then p else once fuel rest p
  | fuel + 1, c :: rest, p => once fuel rest (p.write [c])

/-- Goes through a format as often as it takes to use the words up. -/
def all (format : List Char) : Nat → Printer → Printer
  | 0, p => p
  | fuel + 1, p =>
    let q := once format.length format p
    if q.stopped || q.failure.isSome || q.words.isEmpty || q.words.length = p.words.length then q
    else all format fuel q

end Printer

def printed (format : String) (words : List String) : Printer :=
  Printer.all format.toList (words.length + 1) ⟨[], words, [], none, false⟩

end TemporalDB.Shell
