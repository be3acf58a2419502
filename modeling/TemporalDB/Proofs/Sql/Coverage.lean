import TemporalDB.Proofs.Sql.Spelling

/-!
# The tokens of a text and their lines

A text is read from its front: gaps are passed over and tokens are taken, each with the line on which
it begins, until nothing is left or the rest goes wrong. Main statement: `tokens_cover`.
-/

namespace TemporalDB.Sql

open Text

variable {text front rest : List Char} {ls : List Located} {e : SyntaxError}

/-- The front of a text is made of gaps and of the tokens, and the rest comes after it. A token has
the line on which its first character stands: one more than there are line ends in front of it. -/
inductive Covers (text : List Char) : List Char → List Located → List Char → Prop
  | start : Covers text [] [] text
  | gap {front g rest : List Char} {ls : List Located} (before : Covers text front ls (g ++ rest))
      (gap : IsGap g rest) : Covers text (front ++ g) ls rest
  | token {front s rest : List Char} {ls : List Located} {t : Token}
      (before : Covers text front ls (s ++ rest)) (spelt : t.SpeltBy s) (longest : Longest s rest) :
      Covers text (front ++ s) (ls ++ [⟨t, 1 + front.count '\n'⟩]) rest

theorem Covers.append (h : Covers text front ls rest) : front ++ rest = text := by
  induction h with
  | start => rfl
  | gap before gap ih => rw [List.append_assoc, ih]
  | token before spelt longest ih => rw [List.append_assoc, ih]

theorem IsGap.ne_nil {g : List Char} (h : IsGap g rest) : g ≠ [] := by
  cases h <;> exact List.cons_ne_nil _ _

theorem Token.SpeltBy.ne_nil {t : Token} {s : List Char} (h : t.SpeltBy s) : s ≠ [] := by
  have signs : ∀ p ∈ signs, p.1 ≠ [] := by decide
  cases h with
  | sign mem => exact signs _ mem
  | _ => exact List.cons_ne_nil _ _

/-- What is left after the front has the tokens that are left. -/
theorem Covers.tokensFrom_eq (h : Covers text front ls rest) :
    tokensFrom 1 text = (tokensFrom (1 + front.count '\n') rest).map (ls ++ ·) := by
  induction h with
  | start =>
      rw [List.count_nil, Nat.add_zero]
      cases tokensFrom 1 text <;> rfl
  | @gap front g rest ls before gap ih =>
      obtain ⟨c, g, rfl⟩ := List.exists_cons_of_ne_nil gap.ne_nil
      rw [ih, List.cons_append, tokensFrom_gap (scan_gap gap), List.count_append, Nat.add_assoc]
  | @token front s rest ls t before spelt longest ih =>
      obtain ⟨c, s, rfl⟩ := List.exists_cons_of_ne_nil spelt.ne_nil
      rw [ih, List.cons_append, tokensFrom_token (scan_speltBy spelt longest), List.count_append,
        Nat.add_assoc]
      cases tokensFrom (1 + (front.count '\n' + (c :: s).count '\n')) rest <;> simp [Except.map]

/-- A front that does not reach the end goes on by a gap or a token, or the rest goes wrong. -/
theorem Covers.step {c : Char} (h : Covers text front ls (c :: rest)) :
    (∃ front' ls' rest', Covers text front' ls' rest' ∧ rest'.length < (c :: rest).length) ∨
      ∃ e, Fails front (c :: rest) e := by
  have shorter {s after : List Char} (same : c :: rest = s ++ after) (some : s ≠ []) :
      after.length < (c :: rest).length := by
    rw [same, List.length_append]
    exact Nat.lt_add_of_pos_left (List.length_pos_iff.mpr some)
  rcases begins_or_fails front c rest with
    ⟨g, after, same, gap⟩ | ⟨t, s, after, same, spelt, longest⟩ | fails
  · exact .inl ⟨_, _, after, .gap (same ▸ h) gap, shorter same gap.ne_nil⟩
  · exact .inl ⟨_, _, after, .token (same ▸ h) spelt longest, shorter same spelt.ne_nil⟩
  · exact .inr fails

/-- The text is covered up to its end, or up to where it goes wrong. -/
theorem Covers.exists_covers (h : Covers text front ls rest) :
    (∃ ls, Covers text text ls []) ∨
      ∃ front ls rest e, Covers text front ls rest ∧ Fails front rest e := by
  induction size : rest.length using Nat.strong_induction_on generalizing front ls rest with
  | _ size ih =>
      cases rest with
      | nil =>
          have whole := h.append
          rw [List.append_nil] at whole
          exact .inl ⟨ls, whole ▸ h⟩
      | cons c rest =>
          rcases h.step with ⟨front', ls', rest', further, less⟩ | ⟨e, fails⟩
          · exact ih _ (size ▸ less) further rfl
          · exact .inr ⟨front, ls, _, e, h, fails⟩

theorem Fails.exists_cons (h : Fails front rest e) : ∃ c rest', rest = c :: rest' := by
  cases h with
  | unexpected longest none noGap first noQuote => exact ⟨_, List.head?_eq_some_iff.mp first⟩
  | unterminated content => exact ⟨'\'', _, rfl⟩

theorem Covers.tokensFrom_eq_ok (h : Covers text text ls []) : tokensFrom 1 text = .ok ls := by
  rw [h.tokensFrom_eq, tokensFrom, Except.map, List.append_nil]

theorem Fails.tokensFrom_eq_error (fails : Fails front rest e) (h : Covers text front ls rest) :
    tokensFrom 1 text = .error e := by
  obtain ⟨c, rest, rfl⟩ := fails.exists_cons
  rw [h.tokensFrom_eq, tokensFrom_error (scan_of_fails fails), Except.map, ← fails.line]

/-- **The tokens of a text cover all of it but blanks and comments, each from the line on which it
begins; a text without tokens is covered up to the place where it goes wrong, and the error has the
line of that place.** -/
theorem tokens_cover (s : String) :
    (∀ ls, tokens s = .ok ls ↔ Covers s.toList s.toList ls []) ∧
      ∀ e, tokens s = .error e ↔ ∃ front ls rest, Covers s.toList front ls rest ∧
        Fails front rest e ∧ e.line = 1 + front.count '\n' := by
  have nothing : Covers s.toList [] [] s.toList := .start
  have outcome := nothing.exists_covers
  refine ⟨fun ls => ⟨fun h => ?_, Covers.tokensFrom_eq_ok⟩, fun e => ⟨fun h => ?_, ?_⟩⟩
  · rcases outcome with ⟨ls', covered⟩ | ⟨front, ls', rest, e, covered, fails⟩
    · obtain rfl := Except.ok.inj (h.symm.trans covered.tokensFrom_eq_ok)
      exact covered
    · exact nomatch h.symm.trans (fails.tokensFrom_eq_error covered)
  · rcases outcome with ⟨ls', covered⟩ | ⟨front, ls', rest, e', covered, fails⟩
    · exact nomatch h.symm.trans covered.tokensFrom_eq_ok
    · obtain rfl := Except.error.inj (h.symm.trans (fails.tokensFrom_eq_error covered))
      exact ⟨front, ls', rest, covered, fails, fails.line⟩
  · rintro ⟨front, ls, rest, covered, fails, -⟩
    exact fails.tokensFrom_eq_error covered

example : tokens "SELECT 'a\nb' -- c\r\n<>" =
    .ok [⟨.word "SELECT", 1⟩, ⟨.string "a\nb", 1⟩, ⟨.comparator .notEq, 3⟩] := by
  decide +kernel

end TemporalDB.Sql
