import Mathlib.Data.List.Infix
import Mathlib.Tactic.FinCases
import TemporalDB.Proofs.Sql.Lexeme

/-!
# How tokens are spelt

    word   := letter { letter or digit }
    number := digit { digit or point } | '-' ( digit or point ) { digit or point }
    string := quote { any character, a quote twice } quote
    sign   := one of the signs in the table `signs`

A token reaches as far as its characters still begin some token. A text begins with a gap, or with a
token that reaches as far as it can, or it goes wrong (`begins_or_fails`), and scanning its beginning
gives the gap, the token or the fault (`scan_gap`, `scan_speltBy`, `scan_of_fails`).
-/

namespace TemporalDB.Sql

open Text

variable {c d : Char} {t : Token} {s s' g rest rest' front content : List Char} {e : SyntaxError}

/-! ## The spelling of tokens -/

/-- What stands between the quotes of a string: its content, each quote twice. -/
def doubled (s : List Char) : List Char :=
  s.flatMap fun c => if c = '\'' then ['\'', '\''] else [c]

theorem doubled_quote (s : List Char) : doubled ('\'' :: s) = '\'' :: '\'' :: doubled s := rfl

theorem doubled_cons (h : c ≠ '\'') (s : List Char) : doubled (c :: s) = c :: doubled s := by
  simp [doubled, h]

theorem doubled_append (s s' : List Char) : doubled (s ++ s') = doubled s ++ doubled s' :=
  List.flatMap_append

theorem count_doubled (other : c ≠ '\'') (s : List Char) : (doubled s).count c = s.count c := by
  induction s with
  | nil => rfl
  | cons d s ih =>
      by_cases quote : d = '\''
      · subst quote
        rw [doubled_quote, List.count_cons_of_ne other.symm, List.count_cons_of_ne other.symm,
          List.count_cons_of_ne other.symm, ih]
      · rw [doubled_cons quote, List.count_cons, List.count_cons, ih]

def signs : List (List Char × Token) := [
  (['?'], .param), ([','], .comma), (['('], .leftParen), ([')'], .rightParen), ([';'], .semicolon),
  (['*'], .star), (['='], .comparator .eq), (['<', '>'], .comparator .notEq),
  (['!', '='], .comparator .notEq), (['<'], .comparator .lt), (['<', '='], .comparator .ltEq),
  (['>'], .comparator .gt), (['>', '='], .comparator .gtEq)]

/-- The characters spell the token. -/
inductive Token.SpeltBy : Token → List Char → Prop
  | word {c : Char} {s : List Char} (begins : beginsName c = true)
      (continues : ∀ d ∈ s, continuesName d = true) :
      SpeltBy (.word (String.ofList (c :: s))) (c :: s)
  | number {c : Char} {s : List Char} (begins : c.isDigit = true ∨ c = '-' ∧ s ≠ [])
      (continues : ∀ d ∈ s, continuesNumber d = true) :
      SpeltBy (.number (String.ofList (c :: s))) (c :: s)
  | string (content : List Char) :
      SpeltBy (.string (String.ofList content)) ('\'' :: (doubled content ++ ['\'']))
  | sign {t : Token} {s : List Char} (mem : (s, t) ∈ signs) : SpeltBy t s

/-- Some token begins with the characters. -/
def Begun (s : List Char) : Prop := ∃ t text, Token.SpeltBy t text ∧ s <+: text

/-- The characters begin a token, and the one that comes after them does not go on with it. -/
structure Longest (s rest : List Char) : Prop where
  begun : Begun s
  stop : ∀ c ∈ rest.head?, ¬Begun (s ++ [c])

/-- What may stand between tokens, in front of a text: a blank, or a comment up to the end of its
line. -/
inductive IsGap : List Char → List Char → Prop
  | blank {c : Char} {rest : List Char} (h : isBlank c = true) : IsGap [c] rest
  | comment {s rest : List Char} (line : '\n' ∉ s) (ends : ∀ c ∈ rest.head?, c = '\n') :
      IsGap ('-' :: '-' :: s) rest

/-- How a text goes wrong behind its front.

- What has begun is no token and the character after it cannot go on with it: its line is that of
  the error, and the first character is named.
- A string is opened and never closed: the line is that of the opening quote. -/
inductive Fails (front : List Char) : List Char → SyntaxError → Prop
  | unexpected {c : Char} {s rest : List Char} (longest : Longest s rest)
      (none : ∀ t, ¬Token.SpeltBy t s) (noGap : ∀ g after, s ++ rest = g ++ after → ¬IsGap g after)
      (first : (s ++ rest).head? = some c) (noQuote : c ≠ '\'') :
      Fails front (s ++ rest) ⟨1 + (front ++ s).count '\n', .unexpectedChar c⟩
  | unterminated (content : List Char) :
      Fails front ('\'' :: doubled content) ⟨1 + front.count '\n', .unterminatedString⟩

/-! ## Beginnings of tokens -/

theorem Token.SpeltBy.begun (h : t.SpeltBy s) : Begun s := ⟨t, s, h, List.prefix_rfl⟩

theorem Begun.mono (h : Begun s) (front : s' <+: s) : Begun s' := by
  obtain ⟨t, text, spelt, begins⟩ := h
  exact ⟨t, text, spelt, front.trans begins⟩

theorem begun_nil : Begun [] := ⟨.star, ['*'], .sign (by decide), List.nil_prefix⟩

theorem Longest.eq_nil_of_begun (h : Longest s (g ++ rest)) (more : Begun (s ++ g)) : g = [] := by
  cases g with
  | nil => rfl
  | cons c g => exact absurd (more.mono ⟨g, by simp⟩) (h.stop c rfl)

theorem Begun.cases (h : Begun (c :: s)) :
    (beginsName c = true ∧ ∀ d ∈ s, continuesName d = true) ∨
      ((c.isDigit = true ∨ c = '-') ∧ ∀ d ∈ s, continuesNumber d = true) ∨
      (c = '\'' ∧ ∃ content, s <+: doubled content ++ ['\'']) ∨
      ∃ p ∈ signs, c :: s <+: p.1 := by
  obtain ⟨t, text, spelt, front⟩ := h
  cases spelt with
  | word begins continues =>
      obtain ⟨rfl, others⟩ := List.cons_prefix_cons.mp front
      exact .inl ⟨begins, fun d hd => continues d (others.subset hd)⟩
  | number begins continues =>
      obtain ⟨rfl, others⟩ := List.cons_prefix_cons.mp front
      exact .inr (.inl ⟨begins.imp_right And.left, fun d hd => continues d (others.subset hd)⟩)
  | string content =>
      obtain ⟨rfl, others⟩ := List.cons_prefix_cons.mp front
      exact .inr (.inr (.inl ⟨rfl, content, others⟩))
  | sign mem => exact .inr (.inr (.inr ⟨_, mem, front⟩))

theorem first_of_sign {p : List Char × Token} (mem : p ∈ signs) (front : c :: s <+: p.1) :
    beginsName c = false ∧ c.isDigit = false ∧ c ≠ '-' ∧ c ≠ '\'' := by
  have all : signs.all (fun p => p.1.head?.all fun c =>
      !beginsName c && !c.isDigit && c != '-' && c != '\'') = true := by
    decide +kernel
  obtain ⟨more, text⟩ := front
  have one := List.all_eq_true.mp all p mem
  rw [← text, List.cons_append, List.head?_cons] at one
  simpa [and_assoc] using one

theorem beginsName_hyphen : beginsName '-' = false := by decide +kernel

theorem beginsName_quote : beginsName '\'' = false := by decide +kernel

theorem Begun.name (h : Begun (c :: s)) (begins : beginsName c = true) :
    ∀ d ∈ s, continuesName d = true := by
  rcases h.cases with ⟨-, all⟩ | ⟨digit | rfl, -⟩ | ⟨rfl, -⟩ | ⟨p, mem, front⟩
  · exact all
  · simp [isDigit_eq_false_of_beginsName begins] at digit
  · simp [beginsName_hyphen] at begins
  · simp [beginsName_quote] at begins
  · simp [(first_of_sign mem front).1] at begins

theorem Begun.number (h : Begun (c :: s)) (begins : c.isDigit = true ∨ c = '-') :
    ∀ d ∈ s, continuesNumber d = true := by
  rcases h.cases with ⟨letter, -⟩ | ⟨-, all⟩ | ⟨rfl, -⟩ | ⟨p, mem, front⟩
  · rcases begins with digit | rfl
    · simp [isDigit_eq_false_of_beginsName letter] at digit
    · simp [beginsName_hyphen] at letter
  · exact all
  · exact absurd begins (by decide)
  · obtain ⟨-, digit, hyphen, -⟩ := first_of_sign mem front
    simp [digit, hyphen] at begins

theorem Begun.string (h : Begun ('\'' :: s)) : ∃ content, s <+: doubled content ++ ['\''] := by
  rcases h.cases with ⟨letter, -⟩ | ⟨number, -⟩ | ⟨-, content⟩ | ⟨p, mem, front⟩
  · simp [beginsName_quote] at letter
  · exact absurd number (by decide)
  · exact content
  · exact absurd rfl (first_of_sign mem front).2.2.2

theorem Begun.sign (h : Begun (c :: s)) (letter : beginsName c = false) (digit : c.isDigit = false)
    (hyphen : c ≠ '-') (quote : c ≠ '\'') : ∃ p ∈ signs, c :: s <+: p.1 := by
  rcases h.cases with ⟨begins, -⟩ | ⟨begins, -⟩ | ⟨same, -⟩ | sign
  · simp [letter] at begins
  · simp [digit, hyphen] at begins
  · exact absurd same quote
  · exact sign

/-! ## Strings -/

/-- A string is cut off where its closing quote is, and that is where no other quote follows. -/
theorem scanString_eq_some_iff : scanString s = some (content, rest) ↔
    s = doubled content ++ '\'' :: rest ∧ ∀ c ∈ rest.head?, c ≠ '\'' := by
  constructor
  · intro h
    fun_induction scanString s generalizing content rest with
    | case1 => cases h
    | case2 s ih =>
        obtain ⟨⟨u, after⟩, read, same⟩ := Option.map_eq_some_iff.mp h
        cases same
        obtain ⟨rfl, stop⟩ := ih read
        exact ⟨rfl, stop⟩
    | case3 s other =>
        cases h
        refine ⟨rfl, ?_⟩
        rintro c hc rfl
        obtain ⟨s', rfl⟩ := List.head?_eq_some_iff.mp hc
        exact other s' rfl
    | case4 c s noPair noQuote ih =>
        obtain ⟨⟨u, after⟩, read, same⟩ := Option.map_eq_some_iff.mp h
        cases same
        obtain ⟨rfl, stop⟩ := ih read
        exact ⟨by rw [doubled_cons noQuote, List.cons_append], stop⟩
  · rintro ⟨rfl, stop⟩
    exact scanString_quoted content stop

theorem scanString_eq_none_iff : scanString s = none ↔ ∃ content, s = doubled content := by
  constructor
  · intro h
    fun_induction scanString s with
    | case1 => exact ⟨[], rfl⟩
    | case2 s ih =>
        obtain ⟨content, rfl⟩ := ih (Option.map_eq_none_iff.mp h)
        exact ⟨'\'' :: content, rfl⟩
    | case3 => cases h
    | case4 c s noPair noQuote ih =>
        obtain ⟨content, rfl⟩ := ih (Option.map_eq_none_iff.mp h)
        exact ⟨c :: content, (doubled_cons noQuote content).symm⟩
  · rintro ⟨content, rfl⟩
    induction content with
    | nil => rfl
    | cons c content ih =>
        by_cases quote : c = '\''
        · subst quote
          rw [doubled_quote, scanString, ih, Option.map_none]
        · rw [doubled_cons quote, scanString, ih, Option.map_none]
          · intro _ same
            exact absurd same quote
          · exact quote

/-! ## Signs -/

def followers (s : List Char) : List Char :=
  signs.filterMap fun p => if s.isPrefixOf p.1 then p.1[s.length]? else none

theorem begun_of_mem_followers (h : d ∈ followers s) : Begun (s ++ [d]) := by
  obtain ⟨p, mem, next⟩ := List.mem_filterMap.mp h
  split at next
  · rename_i front
    obtain ⟨more, text⟩ := List.isPrefixOf_iff_prefix.mp front
    rw [← text, List.getElem?_append_right (Nat.le_refl _), Nat.sub_self] at next
    obtain ⟨more', rfl⟩ := List.head?_eq_some_iff.mp (List.head?_eq_getElem?.trans next)
    exact ⟨p.2, p.1, .sign mem, more', by simp [← text]⟩
  · cases next

/-- A sign stands for itself if no other one goes on with what follows. -/
theorem scan_sign {p : List Char × Token} (mem : p ∈ signs)
    (stop : ∀ d ∈ rest.head?, d ∉ followers p.1) :
    ∃ c s, p.1 = c :: s ∧ scan c (s ++ rest) = .ok ⟨some p.2, 0, rest⟩ := by
  fin_cases mem
  -- all but two are at their end whatever follows
  any_goals exact ⟨_, _, rfl, rfl⟩
  · have next : followers ['<'] = ['>', '='] := by decide
    refine ⟨'<', [], rfl, scan_lt fun d hd => ?_⟩
    have other : d ∉ ['>', '='] := next ▸ stop d hd
    simpa [and_comm] using other
  · have next : followers ['>'] = ['='] := by decide
    refine ⟨'>', [], rfl, scan_gt fun d hd => ?_⟩
    have other : d ∉ ['='] := next ▸ stop d hd
    simpa using other

/-- A sign that is scanned is at the beginning of the text. -/
theorem exists_sign_of_scanSign (h : scanSign c rest = some (t, rest')) :
    ∃ s, (s, t) ∈ signs ∧ s <+: c :: rest := by
  unfold scanSign at h
  split at h <;> cases h
  · exact ⟨['<', '='], by decide, _, rfl⟩
  · exact ⟨['<', '>'], by decide, _, rfl⟩
  · exact ⟨['<'], by decide, _, rfl⟩
  · exact ⟨['>', '='], by decide, _, rfl⟩
  · exact ⟨['>'], by decide, _, rfl⟩
  · exact ⟨['!', '='], by decide, _, rfl⟩
  all_goals exact ⟨[_], by decide, _, rfl⟩

/-! ## Scanning by spelling -/

theorem count_break_of_begun (h : Begun s) (noQuote : ∀ c ∈ s.head?, c ≠ '\'') :
    s.count '\n' = 0 := by
  cases s with
  | nil => rfl
  | cons c s =>
      rw [List.count_eq_zero, List.mem_cons, not_or]
      rcases h.cases with ⟨begins, all⟩ | ⟨begins, all⟩ | ⟨quote, -⟩ | ⟨p, mem, front⟩
      · refine ⟨?_, fun feed => absurd (all _ feed) (by decide +kernel)⟩
        rintro rfl
        exact absurd begins (by decide +kernel)
      · refine ⟨?_, fun feed => absurd (all _ feed) (by decide)⟩
        rintro rfl
        exact absurd begins (by decide)
      · exact absurd quote (noQuote c rfl)
      · have unbroken : ∀ p ∈ signs, '\n' ∉ p.1 := by decide
        have none : '\n' ∉ c :: s := fun feed => unbroken p mem (front.subset feed)
        rwa [List.mem_cons, not_or] at none

theorem scan_gap (gap : IsGap (c :: g) rest) :
    scan c (g ++ rest) = .ok ⟨none, (c :: g).count '\n', rest⟩ := by
  cases gap with
  | blank blank =>
      rw [List.nil_append, scan.eq_def]
      by_cases feed : c = '\n'
      · rw [if_pos feed, feed]
        rfl
      · rw [if_neg feed, if_pos blank, List.count_singleton, beq_false_of_ne feed]
        rfl
  | @comment s _ line ends =>
      have inside : ∀ d ∈ '-' :: s, decide (d ≠ '\n') = true := by
        rw [List.forall_mem_cons]
        exact ⟨by decide, fun d hd => decide_eq_true fun feed => line (feed ▸ hd)⟩
      have stop : ∀ d ∈ rest.head?, decide (d ≠ '\n') = false := fun d hd =>
        decide_eq_false (not_not_intro (ends d hd))
      have left := dropWhile_append_of_stop inside stop
      have none : ('-' :: '-' :: s).count '\n' = 0 :=
        List.count_eq_zero.mpr (by simpa using line)
      rw [scan.eq_def, if_neg (by decide), if_neg (by decide), if_pos rfl, left, none]
      rfl

/-- A character that would go on with the token does not come next. -/
theorem Longest.ends {p : Char → Bool} (h : Longest s rest)
    (more : ∀ d, p d = true → Begun (s ++ [d])) : ∀ d ∈ rest.head?, p d = false := by
  intro d hd
  have ended := h.stop d hd
  contrapose! ended
  exact more d (by simpa using ended)

/-- **A token is scanned from its spelling**, if that reaches as far as it can. -/
theorem scan_speltBy (spelt : t.SpeltBy (c :: s)) (longest : Longest (c :: s) rest) :
    scan c (s ++ rest) = .ok ⟨some t, (c :: s).count '\n', rest⟩ := by
  generalize text : c :: s = w at spelt
  cases spelt with
  | word begins continues =>
      cases text
      have stop : ∀ d ∈ rest.head?, continuesName d = false := longest.ends fun d next =>
        (Token.SpeltBy.word begins (List.forall_mem_append.mpr
          ⟨continues, List.forall_mem_singleton.mpr next⟩)).begun
      have unbroken : (c :: s).count '\n' = 0 := by
        refine count_break_of_begun longest.begun ?_
        rintro _ ⟨⟩ rfl
        simp [beginsName_quote] at begins
      rw [scan_name begins continues stop, unbroken]
  | number begins continues =>
      cases text
      have stop : ∀ d ∈ rest.head?, continuesNumber d = false := longest.ends fun d next =>
        (Token.SpeltBy.number (begins.imp_right fun h => ⟨h.1, List.append_ne_nil_of_left_ne_nil h.2 _⟩)
          (List.forall_mem_append.mpr ⟨continues, List.forall_mem_singleton.mpr next⟩)).begun
      have unbroken : (c :: s).count '\n' = 0 := by
        refine count_break_of_begun longest.begun ?_
        rintro _ ⟨⟩ rfl
        exact absurd (begins.imp_right And.left) (by decide)
      rw [scan_numeral begins continues stop, unbroken]
  | string content =>
      cases text
      have stop : ∀ d ∈ rest.head?, d ≠ '\'' := by
        rintro d hd rfl
        -- with one more quote the content goes on
        have quoted := Token.SpeltBy.string (content ++ ['\''])
        rw [doubled_append] at quoted
        exact longest.stop _ hd (quoted.begun.mono ⟨['\''], by simp [doubled]⟩)
      have breaks : ('\'' :: (doubled content ++ ['\''])).count '\n' = content.count '\n' := by
        simp [count_doubled]
      rw [breaks, scan.eq_def, if_neg (by decide), if_neg (by decide), if_neg (by decide),
        if_neg (by decide), if_neg (by decide +kernel), if_pos rfl, List.append_assoc,
        List.singleton_append, scanString_eq_some_iff.mpr ⟨rfl, stop⟩]
  | sign mem =>
      subst text
      have stop : ∀ d ∈ rest.head?, d ∉ followers (c :: s) := fun d hd more =>
        longest.stop d hd (begun_of_mem_followers more)
      obtain ⟨c', s', text, scanned⟩ := scan_sign mem stop
      cases text
      have unbroken : (c :: s).count '\n' = 0 := by
        refine count_break_of_begun longest.begun ?_
        rintro _ ⟨⟩
        exact (first_of_sign mem List.prefix_rfl).2.2.2
      rw [unbroken, scanned]

/-! ## The beginning of any text -/

theorem exists_longest_append (begun : Begun s) (rest : List Char) :
    ∃ g rest', rest = g ++ rest' ∧ Longest (s ++ g) rest' := by
  induction rest generalizing s with
  | nil => exact ⟨[], [], rfl, by rwa [List.append_nil], fun _ h => nomatch h⟩
  | cons c rest ih =>
      by_cases more : Begun (s ++ [c])
      · obtain ⟨g, rest', rfl, longest⟩ := ih more
        exact ⟨c :: g, rest', rfl, by simpa using longest⟩
      · refine ⟨[], c :: rest, rfl, by rwa [List.append_nil], ?_⟩
        rintro _ ⟨⟩
        rwa [List.append_nil]

theorem exists_longest (text : List Char) : ∃ s rest, text = s ++ rest ∧ Longest s rest :=
  exists_longest_append begun_nil text

/-- Whatever begins both a token and the text is within the longest beginning. -/
theorem Longest.covers (h : Longest s rest) (begun : Begun s') (front : s' <+: s ++ rest) :
    s' <+: s := by
  obtain ⟨more, same⟩ := front
  rcases List.append_eq_append_iff.mp same with ⟨g, rfl, rfl⟩ | ⟨g, rfl, rfl⟩
  · exact ⟨g, rfl⟩
  · obtain rfl := h.eq_nil_of_begun begun
    exact ⟨[], by simp⟩

theorem Begun.exists_speltBy (h : Begun s) (spelt : t.SpeltBy s') (front : s' <+: s)
    (noQuote : ∀ c ∈ s.head?, c ≠ '\'') : ∃ t, Token.SpeltBy t s := by
  cases spelt with
  | word begins continues =>
      obtain ⟨more, rfl⟩ := front
      exact ⟨_, .word begins (h.name begins)⟩
  | @number c s begins continues =>
      obtain ⟨more, rfl⟩ := front
      refine ⟨_, .number (begins.imp_right fun h => ⟨h.1, ?_⟩) (h.number (begins.imp_right And.left))⟩
      exact List.append_ne_nil_of_left_ne_nil h.2 _
  | string content =>
      obtain ⟨more, rfl⟩ := front
      exact absurd rfl (noQuote _ rfl)
  | sign mem =>
      -- no sign has more than two characters, so what goes on with one is a whole sign
      have sizes : ∀ p ∈ signs, p.1 ≠ [] ∧ p.1.length ≤ 2 := by decide
      obtain ⟨c, s', rfl⟩ := List.exists_cons_of_ne_nil (sizes _ mem).1
      obtain ⟨more, rfl⟩ := front
      cases more with
      | nil => exact ⟨t, .sign (by rwa [List.append_nil])⟩
      | cons d more =>
          obtain ⟨letter, digit, hyphen, quote⟩ := first_of_sign mem List.prefix_rfl
          obtain ⟨p, mem', front⟩ := h.sign letter digit hyphen quote
          have short := (sizes p mem').2
          have whole : c :: s' ++ d :: more = p.1 := front.eq_of_length_le (by simp; omega)
          exact ⟨p.2, .sign (whole ▸ mem')⟩

theorem eq_of_head?_append (first : (s ++ rest).head? = some c) : ∀ d ∈ s.head?, d = c := by
  intro d hd
  rw [List.head?_append, Option.mem_def.mp hd] at first
  exact Option.some.inj first

/-- What is scanned, if it is no string, is a gap or there is a token at the beginning. -/
theorem gap_or_spelt_of_scan {l : Lexeme} (h : scan c rest = .ok l) (noQuote : c ≠ '\'') :
    (∃ g after, c :: rest = g ++ after ∧ IsGap g after) ∨
      ∃ t s, Token.SpeltBy t s ∧ s <+: c :: rest := by
  rw [scan.eq_def] at h
  split_ifs at h with feed blank hyphen digit letter
  · exact .inl ⟨[c], rest, rfl, .blank (by rw [feed]; decide)⟩
  · exact .inl ⟨[c], rest, rfl, .blank blank⟩
  · subst hyphen
    split at h
    · cases h
    · rename_i d rest
      -- behind a minus sign stand another one or a digit, and anything else is refused
      split_ifs at h with comment number
      · subst comment
        refine .inl ⟨'-' :: '-' :: rest.takeWhile (· ≠ '\n'), rest.dropWhile (· ≠ '\n'), by simp,
          .comment (fun feed => ?_) fun d hd => ?_⟩
        · simpa using List.mem_takeWhile_imp feed
        · have ended := List.head?_dropWhile_not (· ≠ '\n') rest
          rw [Option.mem_def.mp hd] at ended
          simpa using ended
      · exact .inr ⟨_, ['-', d], .number (.inr ⟨rfl, List.cons_ne_nil _ _⟩)
          (List.forall_mem_singleton.mpr number), rest, rfl⟩
  · exact .inr ⟨_, [c], .number (.inl digit) (List.forall_mem_nil _), rest, rfl⟩
  · exact .inr ⟨_, [c], .word letter (List.forall_mem_nil _), rest, rfl⟩
  · split at h
    · rename_i token after sign
      obtain ⟨s, mem, front⟩ := exists_sign_of_scanSign sign
      exact .inr ⟨token, s, .sign mem, front⟩
    · cases h

theorem fault_of_scan {fault : Fault} (h : scan c rest = .error fault) (noQuote : c ≠ '\'') :
    fault = .unexpectedChar c := by
  rw [scan.eq_def] at h
  split_ifs at h
  · split at h
    · exact (Except.error.inj h).symm
    · split_ifs at h
      exact (Except.error.inj h).symm
  · split at h
    · cases h
    · exact (Except.error.inj h).symm

/-- **Where a text goes wrong, its scanning fails.** -/
theorem scan_of_fails (h : Fails front (c :: rest) e) : scan c rest = .error e.fault := by
  generalize text : c :: rest = w at h
  cases h with
  | @unexpected c' s rest' longest none noGap first noQuote =>
      obtain rfl : c = c' := Option.some.inj ((congrArg List.head? text).trans first)
      cases scanned : scan c rest with
      | error fault => rw [fault_of_scan scanned noQuote]
      | ok l =>
          rcases gap_or_spelt_of_scan scanned noQuote with ⟨g, after, same, gap⟩ | ⟨t, s', spelt, begins⟩
          · exact absurd gap (noGap g after (text.symm.trans same))
          · have within := longest.covers spelt.begun (text ▸ begins)
            obtain ⟨t, whole⟩ := longest.begun.exists_speltBy spelt within fun d hd =>
              eq_of_head?_append first d hd ▸ noQuote
            exact absurd whole (none t)
  | unterminated content =>
      cases text
      rw [scan.eq_def, if_neg (by decide), if_neg (by decide), if_neg (by decide),
        if_neg (by decide), if_neg (by decide +kernel), if_pos rfl,
        scanString_eq_none_iff.mpr ⟨content, rfl⟩]

/-- An error has the line on which its text begins to go wrong. -/
theorem Fails.line (h : Fails front rest e) : e.line = 1 + front.count '\n' := by
  cases h with
  | unexpected longest none noGap first noQuote =>
      have unbroken := count_break_of_begun longest.begun fun d hd =>
        eq_of_head?_append first d hd ▸ noQuote
      rw [List.count_append, unbroken, Nat.add_zero]
  | unterminated content => rfl

theorem longest_string (stop : ∀ c ∈ rest.head?, c ≠ '\'') :
    Longest ('\'' :: (doubled content ++ ['\''])) rest := by
  refine ⟨(Token.SpeltBy.string content).begun, fun c hc begun => ?_⟩
  obtain ⟨content', more, same⟩ := begun.string
  -- the same text is read as two strings, and only one of them is at its end
  have shorter : scanString (doubled content' ++ ['\'']) = some (content, c :: more) := by
    refine scanString_eq_some_iff.mpr ⟨by simp [← same], ?_⟩
    rintro _ ⟨⟩
    exact stop c hc
  have longer : scanString (doubled content' ++ ['\'']) = some (content', []) :=
    scanString_eq_some_iff.mpr ⟨rfl, fun _ h => nomatch h⟩
  rw [longer] at shorter
  cases shorter

/-- **A text begins with a gap, with a token or with what is wrong.** -/
theorem begins_or_fails (front : List Char) (c : Char) (rest : List Char) :
    (∃ g after, c :: rest = g ++ after ∧ IsGap g after) ∨
      (∃ t s after, c :: rest = s ++ after ∧ Token.SpeltBy t s ∧ Longest s after) ∨
      ∃ e, Fails front (c :: rest) e := by
  by_cases gap : ∃ g after, c :: rest = g ++ after ∧ IsGap g after
  · exact .inl gap
  refine .inr ?_
  by_cases quote : c = '\''
  · subst quote
    cases read : scanString rest with
    | none =>
        obtain ⟨content, rfl⟩ := scanString_eq_none_iff.mp read
        exact .inr ⟨_, .unterminated content⟩
    | some r =>
        obtain ⟨content, after⟩ := r
        obtain ⟨rfl, stop⟩ := scanString_eq_some_iff.mp read
        exact .inl ⟨_, _, after, by simp, .string content, longest_string stop⟩
  · obtain ⟨s, after, text, longest⟩ := exists_longest (c :: rest)
    by_cases spelt : ∃ t, Token.SpeltBy t s
    · obtain ⟨t, spelt⟩ := spelt
      exact .inl ⟨t, s, after, text, spelt, longest⟩
    · refine .inr ⟨⟨1 + (front ++ s).count '\n', .unexpectedChar c⟩, ?_⟩
      rw [text] at gap ⊢
      refine .unexpected longest (not_exists.mp spelt) (fun g after same isGap => ?_) ?_ quote
      · exact gap ⟨g, after, same, isGap⟩
      · rw [← text, List.head?_cons]

end TemporalDB.Sql
