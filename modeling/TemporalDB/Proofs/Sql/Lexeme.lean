import Mathlib.Data.List.TakeWhile
import TemporalDB.Proofs.Outcome
import TemporalDB.Proofs.Text.Number
import TemporalDB.Sql.Token

/-!
# Tokens, written and scanned

The text of a token is scanned as the token, if nothing follows that would go on with it, so a text
that spells tokens out has just these tokens (`Spells.exists_tokens`). The words and numerals among
the tokens of any text are such as can be written (`genuine_of_tokens`).
-/

namespace TemporalDB.Text

def CharSet.points (s : CharSet) : List Nat :=
  s.flatMap fun (lo, hi) => List.range' lo (hi + 1 - lo)

theorem CharSet.mem_points_of_holds {s : CharSet} {n : Nat} (h : s.holds n = true) :
    n ∈ s.points := by
  induction s with
  | nil => cases h
  | cons range rest ih =>
      obtain ⟨lo, hi⟩ := range
      simp only [holds, Bool.and_eq_true, Bool.or_eq_true, decide_eq_true_eq] at h
      rw [points, List.flatMap_cons, List.mem_append]
      rcases h with ⟨low, high | later⟩
      · exact .inl (List.mem_range'_1.mpr ⟨low, by omega⟩)
      · exact .inr (ih later)

theorem isBlank_eq_false_of_beginsName {c : Char} (h : beginsName c = true) :
    isBlank c = false := by
  have letters : ∀ n ∈ whiteSpace.points, alphabetic.holds n = false := by decide +kernel
  have underscore : isBlank '_' = false := by decide
  rw [Bool.eq_false_iff]
  intro blank
  simp only [beginsName, Bool.or_eq_true, decide_eq_true_eq] at h
  rcases h with letter | rfl
  · have none := letters c.toNat (CharSet.mem_points_of_holds blank)
    rw [isAlphabetic, CharSet.contains, none] at letter
    cases letter
  · rw [underscore] at blank
    cases blank

theorem isDigit_eq_false_of_beginsName {c : Char} (h : beginsName c = true) :
    c.isDigit = false := by
  rw [Bool.eq_false_iff]
  intro digit
  simp only [Char.isDigit, Bool.and_eq_true, decide_eq_true_eq] at digit
  have low : 48 ≤ c.toNat := by simpa using UInt32.le_iff_toNat_le.mp digit.1
  have high : c.toNat ≤ 57 := by simpa using UInt32.le_iff_toNat_le.mp digit.2
  simp only [beginsName, Bool.or_eq_true, decide_eq_true_eq] at h
  rcases h with letter | rfl
  · -- the letters that come first in the table come after the digits
    have first : alphabetic.holds c.toNat = (0x41 ≤ c.toNat && alphabetic.holds c.toNat) := by
      unfold alphabetic CharSet.holds
      cases decide (0x41 ≤ c.toNat) <;> rfl
    rw [isAlphabetic, CharSet.contains, first, Bool.and_eq_true, decide_eq_true_eq] at letter
    omega
  · exact absurd high (by decide)

end TemporalDB.Text

namespace TemporalDB.Sql

open Text

variable {c d : Char} {w n : String} {t : Token} {ts us : List Token} {s front rest : List Char}

/-! ## Tokens that can be written -/

/-- A word as texts can hold it. -/
def IsWord (w : String) : Prop :=
  ∃ c cs, w.toList = c :: cs ∧ beginsName c = true ∧ ∀ d ∈ cs, continuesName d = true

def IsNumeral (n : String) : Prop :=
  ∃ c cs, n.toList = c :: cs ∧ (c.isDigit = true ∨ c = '-' ∧ cs ≠ []) ∧
    ∀ d ∈ cs, continuesNumber d = true

namespace Token

/-- A token as texts can hold it: any string or sign, but not any word or numeral. -/
def Genuine : Token → Prop
  | word w => IsWord w
  | number n => IsNumeral n
  | _ => True

def text : Token → String
  | word w => w
  | number n => n
  | string s => Query.quoteLiteral s
  | param => "?"
  | comma => ","
  | leftParen => "("
  | rightParen => ")"
  | semicolon => ";"
  | star => "*"
  | comparator op => op.symbol

/-- Whether a token is at its end whatever follows. -/
def complete : Token → Bool
  | param | comma | leftParen | rightParen | semicolon | star => true
  | _ => false

end Token

/-- Whether no token goes on with the character. -/
def separates (c : Char) : Bool := c ∈ [' ', '\n', ',', '(', ')', ';']

/-- Nothing comes that would go on with a token. -/
def Apart (rest : List Char) : Prop := ∀ c ∈ rest.head?, separates c = true

theorem apart_nil : Apart [] := fun _ h => nomatch h

theorem apart_cons (h : separates c = true) : Apart (c :: rest) := by
  rintro _ ⟨⟩
  exact h

theorem Apart.append (hf : Apart front) (hr : Apart rest) : Apart (front ++ rest) := by
  cases front with
  | nil => exact hr
  | cons c front => exact apart_cons (hf c rfl)

/-- What separates tokens goes on with no word and no numeral, and begins nothing that belongs to
the token before it. -/
theorem ends_of_separates (h : separates c = true) :
    continuesName c = false ∧ continuesNumber c = false ∧ c ≠ '\'' ∧ c ≠ '=' ∧ c ≠ '>' := by
  have mem : c ∈ [' ', '\n', ',', '(', ')', ';'] := of_decide_eq_true h
  have all : [' ', '\n', ',', '(', ')', ';'].all (fun c => !continuesName c && !continuesNumber c &&
      c != '\'' && c != '=' && c != '>') = true := by
    decide +kernel
  have one := List.all_eq_true.mp all c mem
  simp only [Bool.and_eq_true, Bool.not_eq_true', bne_iff_ne, and_assoc] at one
  exact one

/-- Characters, blanks between them or not, that spell tokens out. -/
inductive Spells : List Char → List Token → Prop
  | done : Spells [] []
  | blank {c : Char} {rest : List Char} {ts : List Token} (hc : isBlank c = true)
      (later : Spells rest ts) : Spells (c :: rest) ts
  | token {t : Token} {rest : List Char} {ts : List Token} (genuine : t.Genuine)
      (apart : t.complete = true ∨ Apart rest) (later : Spells rest ts) :
      Spells (t.text.toList ++ rest) (t :: ts)

/-! ## Scanning what was written -/

theorem scan_name (begins : beginsName c = true) (continues : ∀ d ∈ s, continuesName d = true)
    (stop : ∀ d ∈ rest.head?, continuesName d = false) :
    scan c (s ++ rest) = .ok ⟨some (.word (String.ofList (c :: s))), 0, rest⟩ := by
  have blank := isBlank_eq_false_of_beginsName begins
  have digit := isDigit_eq_false_of_beginsName begins
  have feed : c ≠ '\n' := by
    rintro rfl
    exact absurd blank (by decide)
  have hyphen : c ≠ '-' := by
    rintro rfl
    exact absurd begins (by decide +kernel)
  rw [scan.eq_def, if_neg feed, if_neg (by simp [blank]), if_neg hyphen, if_neg (by simp [digit]),
    if_pos begins, takeWhile_append_of_stop continues stop, dropWhile_append_of_stop continues stop]

theorem scan_numeral (begins : c.isDigit = true ∨ c = '-' ∧ s ≠ [])
    (continues : ∀ d ∈ s, continuesNumber d = true)
    (stop : ∀ d ∈ rest.head?, continuesNumber d = false) :
    scan c (s ++ rest) = .ok ⟨some (.number (String.ofList (c :: s))), 0, rest⟩ := by
  have taken := takeWhile_append_of_stop continues stop
  have left := dropWhile_append_of_stop continues stop
  rcases begins with digit | ⟨rfl, some⟩
  · have blank := isBlank_eq_false_of_isDigit digit
    have feed : c ≠ '\n' := by
      rintro rfl
      exact absurd blank (by decide)
    have hyphen : c ≠ '-' := by
      rintro rfl
      exact absurd digit (by decide)
    rw [scan.eq_def, if_neg feed, if_neg (by simp [blank]), if_neg hyphen, if_pos digit, taken,
      left]
  · -- after a hyphen the next character decides: another hyphen would begin a comment
    obtain ⟨d, s, rfl⟩ := List.exists_cons_of_ne_nil some
    have number : continuesNumber d = true := continues d List.mem_cons_self
    have hyphen : d ≠ '-' := by
      rintro rfl
      exact absurd number (by decide)
    rw [scan.eq_def, if_neg (by decide), if_neg (by decide), if_pos rfl, taken, left]
    simp only [List.cons_append, if_neg hyphen, number, if_true]

theorem scanString_quoted (s : List Char) (stop : ∀ c ∈ rest.head?, c ≠ '\'') :
    scanString (s.flatMap (fun c => if c = '\'' then ['\'', '\''] else [c]) ++ '\'' :: rest) =
      some (s, rest) := by
  induction s with
  | nil =>
      cases rest with
      | nil => rfl
      | cons d rest =>
          -- one more quote would make the closing quote a quote in the string
          have other : d ≠ '\'' := stop d rfl
          rw [List.flatMap_nil, List.nil_append, scanString]
          intro rest' same
          exact other (List.cons.inj same).1
  | cons c s ih =>
      rw [List.flatMap_cons, List.append_assoc]
      by_cases quote : c = '\''
      · subst quote
        rw [if_pos rfl, List.cons_append, List.singleton_append, scanString, ih]
        rfl
      · rw [if_neg quote, List.singleton_append, scanString, ih]
        · rfl
        · intro rest' same
          exact absurd same quote
        · exact quote

theorem toList_quoteLiteral (s : String) : (Query.quoteLiteral s).toList =
    '\'' :: (s.toList.flatMap (fun c => if c = '\'' then ['\'', '\''] else [c]) ++ ['\'']) := by
  rw [Query.quoteLiteral, String.toList_ofList]
  rfl

/-- The sign of an order stands for itself if nothing follows that makes it another. -/
theorem scan_lt (stop : ∀ c ∈ rest.head?, c ≠ '=' ∧ c ≠ '>') :
    scan '<' rest = .ok ⟨some (.comparator .lt), 0, rest⟩ := by
  have sign : scanSign '<' rest = some (.comparator .lt, rest) := by
    cases rest with
    | nil => rfl
    | cons d rest =>
        obtain ⟨equals, greater⟩ := stop d rfl
        simp [scanSign, equals, greater]
  rw [scan.eq_def, if_neg (by decide), if_neg (by decide), if_neg (by decide), if_neg (by decide),
    if_neg (by decide +kernel), if_neg (by decide), sign]

theorem scan_gt (stop : ∀ c ∈ rest.head?, c ≠ '=') :
    scan '>' rest = .ok ⟨some (.comparator .gt), 0, rest⟩ := by
  have sign : scanSign '>' rest = some (.comparator .gt, rest) := by
    cases rest with
    | nil => rfl
    | cons d rest =>
        have equals : d ≠ '=' := stop d rfl
        simp [scanSign, equals]
  rw [scan.eq_def, if_neg (by decide), if_neg (by decide), if_neg (by decide), if_neg (by decide),
    if_neg (by decide +kernel), if_neg (by decide), sign]

/-- **A token is scanned back from its text.** -/
theorem scan_text (genuine : t.Genuine) (apart : t.complete = true ∨ Apart rest) :
    ∃ c s breaks, t.text.toList = c :: s ∧ scan c (s ++ rest) = .ok ⟨some t, breaks, rest⟩ := by
  cases t with
  | word w =>
      obtain ⟨c, s, chars, begins, continues⟩ := genuine
      have apart : Apart rest := apart.resolve_left Bool.false_ne_true
      have name := scan_name begins continues fun d hd => (ends_of_separates (apart d hd)).1
      rw [← chars, String.ofList_toList] at name
      exact ⟨c, s, 0, chars, name⟩
  | number n =>
      obtain ⟨c, s, chars, begins, continues⟩ := genuine
      have apart : Apart rest := apart.resolve_left Bool.false_ne_true
      have numeral := scan_numeral begins continues fun d hd =>
        (ends_of_separates (apart d hd)).2.1
      rw [← chars, String.ofList_toList] at numeral
      exact ⟨c, s, 0, chars, numeral⟩
  | string s =>
      have apart : Apart rest := apart.resolve_left Bool.false_ne_true
      have read := scanString_quoted s.toList fun c hc => (ends_of_separates (apart c hc)).2.2.1
      refine ⟨'\'', _, s.toList.count '\n', toList_quoteLiteral s, ?_⟩
      rw [scan.eq_def, if_neg (by decide), if_neg (by decide), if_neg (by decide),
        if_neg (by decide), if_neg (by decide +kernel), if_pos rfl, List.append_assoc,
        List.singleton_append, read]
      simp only [String.ofList_toList]
  | comparator op =>
      have apart : Apart rest := apart.resolve_left Bool.false_ne_true
      have stop : ∀ c ∈ rest.head?, c ≠ '=' ∧ c ≠ '>' := fun c hc =>
        (ends_of_separates (apart c hc)).2.2.2
      cases op with
      | lt => exact ⟨'<', [], 0, rfl, scan_lt stop⟩
      | gt => exact ⟨'>', [], 0, rfl, scan_gt fun c hc => (stop c hc).1⟩
      | eq => exact ⟨'=', [], 0, rfl, rfl⟩
      | notEq => exact ⟨'<', ['>'], 0, rfl, rfl⟩
      | ltEq => exact ⟨'<', ['='], 0, rfl, rfl⟩
      | gtEq => exact ⟨'>', ['='], 0, rfl, rfl⟩
  | _ => exact ⟨_, [], 0, rfl, rfl⟩

/-! ## The tokens of a text -/

theorem tokensFrom_token {line breaks : Nat}
    (h : scan c s = .ok ⟨some t, breaks, rest⟩) :
    tokensFrom line (c :: s) = (tokensFrom (line + breaks) rest).map (⟨t, line⟩ :: ·) := by
  rw [tokensFrom]
  split
  · rename_i fault hs
    rw [h] at hs
    cases hs
  · rename_i l hs
    obtain rfl := Except.ok.inj (h.symm.trans hs)
    cases tokensFrom (line + breaks) rest <;> rfl

theorem tokensFrom_gap {line breaks : Nat} (h : scan c s = .ok ⟨none, breaks, rest⟩) :
    tokensFrom line (c :: s) = tokensFrom (line + breaks) rest := by
  rw [tokensFrom]
  split
  · rename_i fault hs
    rw [h] at hs
    cases hs
  · rename_i l hs
    obtain rfl := Except.ok.inj (h.symm.trans hs)
    cases tokensFrom (line + breaks) rest <;> rfl

theorem tokensFrom_error {line : Nat} {fault : Fault} (h : scan c s = .error fault) :
    tokensFrom line (c :: s) = .error ⟨line, fault⟩ := by
  rw [tokensFrom]
  split
  · rename_i fault' hs
    obtain rfl := Except.error.inj (h.symm.trans hs)
    rfl
  · rename_i l hs
    rw [h] at hs
    cases hs

theorem exists_scan_blank (h : isBlank c = true) (rest : List Char) :
    ∃ breaks, scan c rest = .ok ⟨none, breaks, rest⟩ := by
  rw [scan.eq_def]
  by_cases feed : c = '\n'
  · exact ⟨1, if_pos feed⟩
  · rw [if_neg feed, if_pos h]
    exact ⟨0, rfl⟩

/-- **What spells tokens out has just these tokens.** -/
theorem Spells.exists_tokens (h : Spells s ts) (line : Nat) :
    ∃ ls, tokensFrom line s = .ok ls ∧ ls.map (·.token) = ts := by
  induction h generalizing line with
  | done => exact ⟨[], by rw [tokensFrom], rfl⟩
  | blank hc later ih =>
      obtain ⟨breaks, gap⟩ := exists_scan_blank hc _
      rw [tokensFrom_gap gap]
      exact ih _
  | token genuine apart later ih =>
      obtain ⟨c, s, breaks, chars, scanned⟩ := scan_text genuine apart
      obtain ⟨ls, read, same⟩ := ih (line + breaks)
      refine ⟨⟨_, line⟩ :: ls, ?_, by rw [List.map_cons, same]⟩
      rw [chars, List.cons_append, tokensFrom_token scanned, read]
      rfl

theorem genuine_of_scan {l : Lexeme} (h : scan c s = .ok l) : ∀ t ∈ l.token, t.Genuine := by
  have signs {x : Token × List Char} (hx : scanSign c s = some x) : x.1.Genuine := by
    unfold scanSign at hx
    split at hx <;> cases hx <;> trivial
  have run {p : Char → Bool} : ∀ d ∈ s.takeWhile p, p d = true := fun d hd =>
    List.mem_takeWhile_imp hd
  rw [scan.eq_def] at h
  -- the cases come in the order in which `scan` tells first characters apart
  split_ifs at h with feed blank hyphen digit letter quote
  · cases h
    rintro _ ⟨⟩
  · cases h
    rintro _ ⟨⟩
  · split at h
    · cases h
    · rename_i d rest
      split_ifs at h with comment number
      · cases h
        rintro _ ⟨⟩
      · cases h
        rintro _ ⟨⟩
        refine ⟨c, _, String.toList_ofList, .inr ⟨hyphen, ?_⟩, run⟩
        rw [List.takeWhile_cons_of_pos number]
        exact List.cons_ne_nil _ _
  · cases h
    rintro _ ⟨⟩
    exact ⟨c, _, String.toList_ofList, .inl digit, run⟩
  · cases h
    rintro _ ⟨⟩
    exact ⟨c, _, String.toList_ofList, letter, run⟩
  · split at h
    · cases h
      rintro _ ⟨⟩
      trivial
    · cases h
  · split at h
    · rename_i token after sign
      cases h
      rintro _ ⟨⟩
      exact signs sign
    · cases h

/-- **The words and numerals of a text can be written.** -/
theorem genuine_of_tokensFrom {line : Nat} {ls : List Located} (h : tokensFrom line s = .ok ls) :
    ∀ l ∈ ls, l.token.Genuine := by
  fun_induction tokensFrom line s generalizing ls with
  | case1 =>
      cases h
      exact List.forall_mem_nil _
  | case2 => cases h
  | case3 line c rest l scanned ih =>
      obtain ⟨later, hlater, h⟩ := bind_eq_ok_iff.mp h
      have genuine := genuine_of_scan scanned
      cases ht : l.token with
      | none =>
          rw [ht] at h
          cases h
          exact ih hlater
      | some t =>
          rw [ht] at h
          cases h
          exact List.forall_mem_cons.mpr ⟨genuine t ht, ih hlater⟩

/-- **A word is the only token of itself.** -/
theorem isWord_iff : IsWord w ↔ tokens w = .ok [⟨.word w, 1⟩] := by
  constructor
  · intro name
    have genuine : (Token.word w).Genuine := name
    obtain ⟨c, s, breaks, chars, scanned⟩ := scan_text genuine (.inr apart_nil)
    change w.toList = c :: s at chars
    rw [tokens, chars, ← List.append_nil s, tokensFrom_token scanned, tokensFrom]
    rfl
  · intro h
    exact genuine_of_tokensFrom h _ List.mem_cons_self

end TemporalDB.Sql
