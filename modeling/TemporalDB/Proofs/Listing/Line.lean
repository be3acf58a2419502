import Mathlib.Data.List.Basic
import TemporalDB.Listing
import TemporalDB.Proofs.Text.Line
import TemporalDB.Proofs.Text.Number

/-!
# Lines written and read

A directive is read back from its line, whatever stands in its quoted strings, and so are the
directives of a listing from its text. Words must be such that a line can hold them: not empty,
and without blanks and quotes.
-/

namespace TemporalDB.Listing

open Text

variable {c : Char} {w : String} {t : Token} {ts : List Token} {d : Directive}
  {ds : List Directive} {rest : List Char}

/-! ## What a line can hold -/

/-- A word that a line gives back as it is written. -/
structure IsWord (w : String) : Prop where
  nonempty : w ≠ ""
  continues : ∀ c ∈ w.toList, continuesWord c = true

/-- A word that may begin a line that counts. -/
structure IsKeyword (w : String) : Prop extends IsWord w where
  counts : w.toList.head? ≠ some ';'

instance : Decidable (IsWord w) :=
  decidable_of_iff (w ≠ "" ∧ w.toList.all continuesWord = true)
    ⟨fun h => ⟨h.1, List.all_eq_true.mp h.2⟩, fun h => ⟨h.1, List.all_eq_true.mpr h.2⟩⟩

instance : Decidable (IsKeyword w) :=
  decidable_of_iff (IsWord w ∧ w.toList.head? ≠ some ';')
    ⟨fun h => ⟨h.1, h.2⟩, fun h => ⟨h.1, h.2⟩⟩

/-- A token that a line gives back as it is written: any string in quotes, but not any word. -/
def Token.Readable : Token → Prop
  | word w => IsWord w
  | quoted _ => True

def Directive.tokens (d : Directive) : List Token := .word d.keyword :: d.arguments.getD []

/-- A directive that is read from its line as it is written. -/
structure Directive.Readable (d : Directive) : Prop where
  keyword : IsKeyword d.keyword
  arguments : ∀ t ∈ d.arguments.getD [], t.Readable

def spaced (ts : List Token) : List Char := ts.flatMap fun t => ' ' :: t.text.toList

theorem Directive.readable_mk {keyword : String} {arguments : Option (List Token)}
    (word : IsKeyword keyword) (readable : ∀ t ∈ arguments.getD [], t.Readable) :
    Directive.Readable ⟨keyword, arguments⟩ := ⟨word, readable⟩

theorem isBlank_of_continuesWord (h : continuesWord c = true) : isBlank c = false := by
  simp only [continuesWord, Bool.and_eq_true, Bool.not_eq_true'] at h
  exact h.1

theorem IsWord.exists_cons (h : IsWord w) : ∃ c rest, w.toList = c :: rest ∧
    isBlank c = false ∧ c ≠ '"' ∧ ∀ d ∈ rest, continuesWord d = true := by
  obtain ⟨c, rest, hw⟩ := List.exists_cons_of_ne_nil
    (fun e => h.nonempty (String.toList_eq_nil_iff.mp e))
  have hc : continuesWord c = true := h.continues c (by rw [hw]; exact List.mem_cons_self)
  refine ⟨c, rest, hw, isBlank_of_continuesWord hc, ?_, ?_⟩
  · rintro rfl
    exact absurd hc (by decide)
  · intro d hd
    exact h.continues d (by rw [hw]; exact List.mem_cons_of_mem _ hd)

theorem IsWord.append {u : String} (hw : IsWord w) (hu : IsWord u) : IsWord (w ++ u) := by
  refine ⟨?_, ?_⟩
  · intro he
    exact hw.nonempty (String.append_eq_empty_iff.mp he).1
  · intro c hc
    rw [String.toList_append, List.mem_append] at hc
    rcases hc with hc | hc
    · exact hw.continues c hc
    · exact hu.continues c hc

theorem isWord_showNat {n : Nat} : IsWord (showNat n) := by
  refine ⟨?_, ?_⟩
  · intro he
    exact Nat.toDigits_ne_nil (toList_showNat.symm.trans (String.toList_eq_nil_iff.mpr he))
  · intro c hc
    rw [toList_showNat] at hc
    have digit : c.isDigit = true := isDigit_of_mem_toDigits hc
    have quote : c ≠ '"' := by
      rintro rfl
      exact absurd digit (by decide)
    simp [continuesWord, isBlank_eq_false_of_isDigit digit, quote]

/-! ## Strings in quotes -/

theorem toList_quote (s : String) :
    (quote s).toList = '"' :: (s.toList.flatMap escape ++ ['"']) := by
  rw [quote, String.toList_ofList]
  rfl

/-- **A string is read back from its quotes**, and what follows the quotes is left. -/
theorem scanQuoted_escape (s : List Char) :
    scanQuoted (s.flatMap escape ++ '"' :: rest) = .ok (s, rest) := by
  induction s with
  | nil => rfl
  | cons c s ih =>
      rw [List.flatMap_cons, List.append_assoc]
      by_cases special : c = '\\' ∨ c = '"'
      · rw [escape, if_pos (by simpa using special)]
        rcases special with rfl | rfl
        · simp [scanQuoted, ih, bind, Except.bind]
        · simp [scanQuoted, ih, bind, Except.bind]
      · rw [escape, if_neg (by simpa using special)]
        rw [not_or] at special
        by_cases feed : c = '\n'
        · subst feed
          simp [scanQuoted, ih, bind, Except.bind]
        · rw [if_neg feed, List.singleton_append, scanQuoted, ih]
          · rfl
          · exact special.2
          · exact special.1

theorem feed_not_mem_escape : '\n' ∉ escape c := by
  unfold escape
  split
  · next h =>
      rcases (by simpa using h : c = '\\' ∨ c = '"') with rfl | rfl <;> decide
  · split
    · decide
    · next h => simpa [eq_comm] using h

/-! ## Tokens of a line -/

theorem splitLine_blank : splitLine (' ' :: rest) = splitLine rest := by
  rw [splitLine, if_pos (by decide)]

/-- A word ends where something comes that does not continue it. -/
theorem splitLine_word (h : IsWord w) (stop : ∀ c ∈ rest.head?, continuesWord c = false) :
    splitLine (w.toList ++ rest) = (splitLine rest).map (.word w :: ·) := by
  obtain ⟨c, inner, hw, blank, quote, continues⟩ := h.exists_cons
  have taken : (inner ++ rest).takeWhile continuesWord = inner := by
    rw [List.takeWhile_append_of_pos continues]
    cases rest with
    | nil => simp
    | cons d rest => simp [stop d rfl]
  have left : (inner ++ rest).dropWhile continuesWord = rest := by
    rw [List.dropWhile_append_of_pos continues]
    cases rest with
    | nil => rfl
    | cons d rest => simp [stop d rfl]
  rw [hw, List.cons_append, splitLine, if_neg (by simp [blank]), if_neg quote, taken, left, ← hw,
    String.ofList_toList]
  cases splitLine rest <;> rfl

theorem splitLine_quoted (s : String) :
    splitLine ((quote s).toList ++ rest) = (splitLine rest).map (.quoted s :: ·) := by
  have scan : scanQuoted ((s.toList.flatMap escape ++ ['"']) ++ rest) = .ok (s.toList, rest) := by
    rw [List.append_assoc]
    exact scanQuoted_escape s.toList
  rw [toList_quote, List.cons_append, splitLine, if_neg (by decide), if_pos rfl]
  split
  · next fault hf => rw [scan] at hf; cases hf
  · next content after hs =>
      rw [scan] at hs
      cases hs
      rw [String.ofList_toList]
      cases splitLine rest <;> rfl

/-- Tokens that a line can hold are read back from behind their blanks. -/
theorem splitLine_spaced (h : ∀ t ∈ ts, t.Readable) : splitLine (spaced ts) = .ok ts := by
  induction ts with
  | nil => rw [spaced, List.flatMap_nil, splitLine]
  | cons t ts ih =>
      rw [List.forall_mem_cons] at h
      have others := ih h.2
      have stop : ∀ c ∈ (spaced ts).head?, continuesWord c = false := by
        cases ts with
        | nil => simp [spaced]
        | cons u us =>
            intro c hc
            obtain rfl : ' ' = c := by simpa [spaced] using hc
            decide
      show splitLine (' ' :: (t.text.toList ++ spaced ts)) = _
      rw [splitLine_blank]
      cases t with
      | word w => rw [Token.text, splitLine_word h.1 stop, others]; rfl
      | quoted s => rw [Token.text, splitLine_quoted, others]; rfl

/-! ## Whole lines -/

theorem Token.Readable.exists_last (h : t.Readable) :
    ∃ front c, t.text.toList = front ++ [c] ∧ isBlank c = false := by
  cases t with
  | word w =>
      obtain ⟨front, c, hw⟩ := List.eq_nil_or_concat w.toList |>.resolve_left
        (fun e => h.nonempty (String.toList_eq_nil_iff.mp e))
      rw [List.concat_eq_append] at hw
      exact ⟨front, c, hw, isBlank_of_continuesWord (h.continues c (by rw [hw]; simp))⟩
  | quoted s =>
      exact ⟨'"' :: s.toList.flatMap escape, '"', toList_quote s, by decide⟩

/-- A line without arguments, or with some, as it stands without the blanks around it. -/
def Directive.row (d : Directive) : List Char :=
  d.keyword.toList ++ spaced (d.arguments.getD [])

theorem intercalate_text_cons :
    (String.intercalate " " ((t :: ts).map Token.text)).toList = t.text.toList ++ spaced ts := by
  induction ts generalizing t with
  | nil => simp [spaced]
  | cons u us ih =>
      rw [List.map_cons, List.map_cons, String.intercalate_cons_cons, ← List.map_cons,
        String.toList_append, String.toList_append, ih]
      simp [spaced]

/-- A keyword whose arguments are none of all has a blank after it. -/
theorem Directive.toList_text : d.text.toList = d.row ∨ d.text.toList = d.row ++ [' '] := by
  unfold text row
  rcases d.arguments with _ | _ | ⟨t, ts⟩
  · exact Or.inl (by simp [spaced])
  · exact Or.inr (by simp [spaced])
  · refine Or.inl ?_
    dsimp only
    rw [String.toList_append, String.toList_append, intercalate_text_cons]
    simp [spaced]

namespace Directive.Readable

theorem exists_cons_row (h : d.Readable) : ∃ c rest, d.row = c :: rest ∧ isBlank c = false ∧
    c ≠ ';' := by
  obtain ⟨c, rest, hw, blank, -, -⟩ := h.keyword.toIsWord.exists_cons
  refine ⟨c, rest ++ spaced (d.arguments.getD []), ?_, blank, ?_⟩
  · rw [row, hw, List.cons_append]
  · rintro rfl
    exact h.keyword.counts (by rw [hw]; rfl)

theorem exists_last_row (h : d.Readable) : ∃ front c, d.row = front ++ [c] ∧
    isBlank c = false := by
  rcases List.eq_nil_or_concat (d.arguments.getD []) with hn | ⟨ts, t, ht⟩
  · obtain ⟨front, c, hw, blank⟩ := Token.Readable.exists_last (t := .word d.keyword) h.keyword.toIsWord
    refine ⟨front, c, ?_, blank⟩
    rw [row, hn, spaced, List.flatMap_nil, List.append_nil]
    exact hw
  · rw [List.concat_eq_append] at ht
    obtain ⟨front, c, hc, blank⟩ := Token.Readable.exists_last (h.arguments t (by rw [ht]; simp))
    refine ⟨d.keyword.toList ++ (spaced ts ++ ' ' :: front), c, ?_, blank⟩
    rw [row, ht]
    simp [spaced, hc]

theorem trim_text (h : d.Readable) : trim d.text.toList = d.row := by
  obtain ⟨c, rest, hrow, blank, -⟩ := h.exists_cons_row
  obtain ⟨front, e, hlast, blank'⟩ := h.exists_last_row
  have head : ∀ x ∈ d.row.head?, isBlank x = false := by
    rw [hrow]
    rintro x ⟨⟩
    exact blank
  have last : ∀ x ∈ d.row.getLast?, isBlank x = false := by
    rw [hlast, List.getLast?_concat]
    rintro x ⟨⟩
    exact blank'
  rcases d.toList_text with ht | ht
  · rw [ht, trim_eq_self head last]
  · rw [ht, trim_append_blank (by decide) (by rw [hrow]; exact List.cons_ne_nil _ _) head,
      trim_eq_self head last]

/-- **A directive is read from its line as it is written.** -/
theorem splitLine_row (h : d.Readable) : splitLine d.row = .ok d.tokens := by
  rw [row, splitLine_word h.keyword.toIsWord, splitLine_spaced h.arguments]
  · rfl
  · intro c hc
    cases hts : d.arguments.getD [] with
    | nil => simp [hts, spaced] at hc
    | cons t ts =>
        obtain rfl : ' ' = c := by simpa [hts, spaced] using hc
        decide

theorem counts_trim_text (h : d.Readable) : Listing.counts (trim d.text.toList) = true := by
  obtain ⟨c, rest, hrow, -, notComment⟩ := h.exists_cons_row
  rw [h.trim_text, hrow]
  exact decide_eq_true notComment

theorem feed_not_mem_text (h : d.Readable) : '\n' ∉ d.text.toList := by
  have word : ∀ {w : String}, IsWord w → '\n' ∉ w.toList := fun hw hn =>
    absurd (hw.continues _ hn) (by decide)
  have token : ∀ {t : Token}, t.Readable → '\n' ∉ t.text.toList := by
    intro t ht
    cases t with
    | word w => exact word ht
    | quoted s =>
        rw [Token.text, toList_quote]
        simp only [List.mem_cons, List.mem_append, List.mem_flatMap, not_or, not_exists, not_and]
        exact ⟨by decide, fun _ _ => feed_not_mem_escape, by decide, List.not_mem_nil⟩
  have inRow : '\n' ∉ d.row := by
    rw [row, List.mem_append, spaced, List.mem_flatMap]
    rintro (hk | ⟨t, ht, hn⟩)
    · exact word h.keyword.toIsWord hk
    · rcases List.mem_cons.mp hn with hb | hn
      · exact absurd hb (by decide)
      · exact token (h.arguments t ht) hn
  rcases d.toList_text with ht | ht
  · rwa [ht]
  · rw [ht, List.mem_append, not_or]
    exact ⟨inRow, by decide⟩

theorem dropReturn_text (h : d.Readable) : dropReturn d.text.toList = d.text.toList := by
  apply dropReturn_eq_self
  obtain ⟨front, c, hlast, blank⟩ := h.exists_last_row
  rcases d.toList_text with ht | ht
  · rw [ht, hlast, List.getLast?_concat]
    rintro ⟨⟩
    exact absurd blank (by decide)
  · rw [ht, List.getLast?_concat]
    decide

end Directive.Readable

/-! ## Whole listings -/

def numbered (number : Nat) : List Directive → List Line
  | [] => []
  | d :: ds => ⟨number, d.tokens⟩ :: numbered (number + 1) ds

theorem length_numbered {number : Nat} : (numbered number ds).length = ds.length := by
  induction ds generalizing number with
  | nil => rfl
  | cons d ds ih => rw [numbered, List.length_cons, List.length_cons, ih]

theorem toList_textOf_cons :
    (textOf (d :: ds)).toList = d.text.toList ++ '\n' :: (textOf ds).toList := by
  rw [textOf, List.map_cons, String.join_cons, String.toList_append, String.toList_append,
    List.append_assoc]
  rfl

theorem textOf_append (ds es : List Directive) : textOf (ds ++ es) = textOf ds ++ textOf es := by
  rw [textOf, List.map_append, String.join_append]
  rfl

theorem lines_textOf (h : ∀ d ∈ ds, d.Readable) :
    lines (textOf ds).toList = ds.map fun d => d.text.toList := by
  induction ds with
  | nil => rfl
  | cons d ds ih =>
      rw [List.forall_mem_cons] at h
      rw [toList_textOf_cons, lines_append_cons h.1.feed_not_mem_text, h.1.dropReturn_text,
        ih h.2, List.map_cons]

theorem readLinesFrom_text {number : Nat} (h : ∀ d ∈ ds, d.Readable) :
    readLinesFrom number (ds.map fun d => d.text.toList) = .ok (numbered number ds) := by
  induction ds generalizing number with
  | nil => rfl
  | cons d ds ih =>
      rw [List.forall_mem_cons] at h
      rw [List.map_cons, readLinesFrom, if_pos h.1.counts_trim_text, h.1.trim_text,
        h.1.splitLine_row, ih h.2]
      rfl

/-! ## Comments -/

def commentRow (s : String) : List Char :=
  [';', ' '] ++ s.toList.map fun c => if c = '\n' || c = '\r' then ' ' else c

theorem lines_comment (s : String) :
    lines ((comment s).toList ++ rest) = dropReturn (commentRow s) :: lines rest := by
  have hc : (comment s).toList ++ rest = commentRow s ++ '\n' :: rest := by
    unfold comment commentRow
    simp [String.toList_append, String.toList_ofList]
  rw [hc, lines_append_cons]
  unfold commentRow
  simp only [List.mem_append, List.mem_map, not_or, not_exists, not_and]
  refine ⟨by decide, fun c _ => ?_⟩
  split
  · decide
  · next h => simp_all

theorem counts_trim_comment (s : String) : counts (trim (dropReturn (commentRow s))) = false := by
  have kept : dropReturn (commentRow s) = commentRow s := by
    apply dropReturn_eq_self
    unfold commentRow
    rw [List.getLast?_append, List.getLast?_map]
    cases s.toList.getLast? with
    | none => decide
    | some c =>
        simp only [Option.map_some, Option.some_or, ne_eq, Option.some.injEq]
        split
        · decide
        · next h => simp_all
  have front : skipBlanks (commentRow s) = commentRow s := skipBlanks_cons (by decide)
  obtain ⟨rest, hrest⟩ : ∃ rest, dropTrailingBlanks (commentRow s) = ';' :: rest :=
    exists_dropTrailingBlanks_cons (by decide)
  rw [kept, trim, front, hrest]
  rfl

/-- **A listing is read as it is written**: the comment on its first line does not count, and the
lines of its directives are numbered after it. -/
theorem readLines_comment_textOf (s : String) (h : ∀ d ∈ ds, d.Readable) :
    readLines (comment s ++ textOf ds) = .ok (numbered 2 ds) := by
  rw [readLines, String.toList_append, lines_comment, readLinesFrom, if_neg, lines_textOf h,
    readLinesFrom_text h]
  rw [counts_trim_comment]
  exact Bool.false_ne_true

end TemporalDB.Listing
