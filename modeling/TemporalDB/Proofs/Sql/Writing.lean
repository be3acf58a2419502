import TemporalDB.Proofs.Sql.Lexeme

/-!
# Writing tokens

A text writes tokens if it spells them out in front of whatever does not go on with the last of
them, and it closes them if it does so in front of anything. Texts that write tokens are put
together from smaller ones.
-/

namespace TemporalDB.Sql

open Text

variable {s s' k : String} {t : Token} {ts us : List Token}

/-- The text spells the tokens out if nothing follows that goes on with them. -/
def Writes (s : String) (ts : List Token) : Prop :=
  ∀ rest us, Apart rest → Spells rest us → Spells (s.toList ++ rest) (ts ++ us)

/-- The text spells the tokens out whatever follows. -/
def Closes (s : String) (ts : List Token) : Prop :=
  ∀ rest us, Spells rest us → Spells (s.toList ++ rest) (ts ++ us)

theorem Closes.writes (h : Closes s ts) : Writes s ts := fun rest us _ later => h rest us later

theorem Closes.append (h : Closes s ts) (h' : Closes s' us) : Closes (s ++ s') (ts ++ us) := by
  intro rest vs later
  rw [String.toList_append, List.append_assoc, List.append_assoc]
  exact h _ _ (h' _ _ later)

theorem Closes.append_writes (h : Closes s ts) (h' : Writes s' us) :
    Writes (s ++ s') (ts ++ us) := by
  intro rest vs apart later
  rw [String.toList_append, List.append_assoc, List.append_assoc]
  exact h _ _ (h' _ _ apart later)

theorem Writes.append (h : Writes s ts) (h' : Writes s' us) (apart : Apart s'.toList) :
    Writes (s ++ s') (ts ++ us) := by
  intro rest vs apart' later
  rw [String.toList_append, List.append_assoc, List.append_assoc]
  exact h _ _ (apart.append apart') (h' _ _ apart' later)

/-- The text begins with something that goes on with no token. -/
def Opens (s : String) : Prop := s.toList.head?.any separates = true

instance : DecidablePred Opens := fun _ => inferInstanceAs (Decidable (_ = true))

theorem Opens.exists_chars (h : Opens s) : ∃ c cs, s.toList = c :: cs ∧ separates c = true := by
  unfold Opens at h
  cases chars : s.toList with
  | nil =>
      rw [chars] at h
      cases h
  | cons c cs =>
      rw [chars] at h
      exact ⟨c, cs, rfl, h⟩

theorem Opens.apart_append (h : Opens s) (rest : List Char) : Apart (s.toList ++ rest) := by
  obtain ⟨c, cs, chars, separates⟩ := h.exists_chars
  rw [chars]
  exact apart_cons separates

theorem Opens.apart (h : Opens s) : Apart s.toList := by
  have apart := h.apart_append []
  rwa [List.append_nil] at apart

theorem Opens.append (h : Opens s) (s' : String) : Opens (s ++ s') := by
  obtain ⟨c, cs, chars, separates⟩ := h.exists_chars
  rw [Opens, String.toList_append, chars]
  exact separates

/-- A text that begins apart from what is before it closes that too. -/
theorem Writes.append_closes (h : Writes s ts) (h' : Closes s' us) (opens : Opens s') :
    Closes (s ++ s') (ts ++ us) := by
  intro rest vs later
  rw [String.toList_append, List.append_assoc, List.append_assoc]
  exact h _ _ (opens.apart_append rest) (h' _ _ later)

theorem Writes.spells (h : Writes s ts) : Spells s.toList ts := by
  simpa using h [] [] apart_nil .done

theorem Writes.exists_tokens (h : Writes s ts) :
    ∃ ls, tokens s = .ok ls ∧ ls.map (·.token) = ts := h.spells.exists_tokens 1

theorem Writes.of_eq (h : Writes s ts) (same : s = s') : Writes s' ts := same ▸ h

theorem Closes.of_eq (h : Closes s ts) (same : s = s') : Closes s' ts := same ▸ h

/-! ## One token -/

theorem closes_nothing : Closes "" [] := fun _ _ later => later

theorem closes_blank : Closes " " [] := fun _ _ later => .blank (by decide) later

theorem writes_token (genuine : t.Genuine) : Writes t.text [t] := fun _ _ apart later =>
  .token genuine (.inr apart) later

theorem closes_token (genuine : t.Genuine) (complete : t.complete = true) : Closes t.text [t] :=
  fun _ _ later => .token genuine (.inl complete) later

theorem writes_word (h : IsWord k) : Writes k [.word k] := writes_token (t := .word k) h

theorem writes_showNat (n : Nat) : Writes (showNat n) [.number (showNat n)] := by
  obtain ⟨d, ds, digits⟩ := List.exists_cons_of_ne_nil (@Nat.toDigits_ne_nil n 10)
  have digit : ∀ c ∈ d :: ds, c.isDigit = true := fun c hc =>
    isDigit_of_mem_toDigits (digits ▸ hc)
  have numeral : (Token.number (showNat n)).Genuine := by
    refine ⟨d, ds, toList_showNat.trans digits, .inl (digit d List.mem_cons_self), fun c hc => ?_⟩
    rw [continuesNumber, digit c (List.mem_cons_of_mem d hc), Bool.true_or]
  exact writes_token (t := .number (showNat n)) numeral

theorem closes_leftParen : Closes "(" [.leftParen] := closes_token (t := .leftParen) trivial rfl

theorem closes_rightParen : Closes ")" [.rightParen] := closes_token (t := .rightParen) trivial rfl

theorem closes_comma : Closes ", " [.comma] :=
  ((closes_token (t := .comma) trivial rfl).append closes_blank).of_eq (by decide)

theorem closes_semicolon : Closes ";" [.semicolon] := closes_token (t := .semicolon) trivial rfl

/-! ## What closes other tokens -/

theorem Writes.blank (h : Writes s ts) : Closes (s ++ " ") ts := by
  have closed := h.append_closes closes_blank (by decide)
  rwa [List.append_nil] at closed

theorem Writes.rightParen (h : Writes s ts) : Closes (s ++ ")") (ts ++ [.rightParen]) :=
  h.append_closes closes_rightParen (by decide)

theorem writes_optional (h : Writes s ts) (there : Bool) :
    Writes (if there then s else "") (if there then ts else []) := by
  cases there with
  | false => exact closes_nothing.writes
  | true => exact h

theorem apart_optional (h : Opens s) (there : Bool) : Apart (if there then s else "").toList := by
  cases there with
  | false => exact apart_nil
  | true => exact h.apart

/-! ## Keywords -/

def keywords : List String :=
  ["EXPLAIN", "INSERT", "INTO", "VALUES", "UPDATE", "SET", "DELETE", "FROM", "SELECT", "FOR",
    "SYSTEM_TIME", "AS", "OF", "WHERE", "AND", "CREATE", "TABLE", "NOT", "NULL", "PRIMARY", "KEY",
    "WITH", "SYSTEM", "VERSIONING"]

theorem isWord_of_mem_keywords : ∀ k ∈ keywords, IsWord k := by
  have all : ∀ k ∈ keywords, tokens k = .ok [⟨.word k, 1⟩] := by decide +kernel
  exact fun k h => isWord_iff.mpr (all k h)

theorem closes_keyword (k : String) (h : k ∈ keywords) : Closes (k ++ " ") [.word k] :=
  (writes_word (isWord_of_mem_keywords k h)).blank

/-! ## Lists -/

def separatedTokens {α : Type} (separator : List Token) (item : α → List Token) :
    List α → List Token
  | [] => []
  | [a] => item a
  | a :: b :: rest => item a ++ separator ++ separatedTokens separator item (b :: rest)

abbrev commaTokens {α : Type} (item : α → List Token) : List α → List Token :=
  separatedTokens [.comma] item

def nameTokens (name : String) : List Token := [.word name]

def enclosedTokens {α : Type} (item : α → List Token) (as : List α) : List Token :=
  [.leftParen] ++ commaTokens item as ++ [.rightParen]

section

variable {α : Type} {text : α → String} {item : α → List Token} {as : List α}

theorem writes_intercalate {separator : String} {us : List Token} (hs : Closes separator us)
    (opens : Opens separator) (h : ∀ a ∈ as, Writes (text a) (item a)) :
    Writes (String.intercalate separator (as.map text)) (separatedTokens us item as) := by
  induction as with
  | nil => exact closes_nothing.writes
  | cons a as ih =>
      obtain ⟨first, others⟩ := List.forall_mem_cons.mp h
      cases as with
      | nil =>
          rw [List.map_singleton, String.intercalate_singleton]
          exact first
      | cons b as =>
          rw [List.map_cons, List.map_cons, String.intercalate_cons_cons, ← List.map_cons]
          exact (first.append_closes hs opens).append_writes (ih others)

theorem writes_commaSeparated (h : ∀ a ∈ as, Writes (text a) (item a)) :
    Writes (Query.commaSeparated (as.map text)) (commaTokens item as) :=
  writes_intercalate closes_comma (by decide) h

/-- The tokens of items are those of each of them, and separators. -/
theorem forall_mem_separatedTokens {separator : List Token} {p : Token → Prop}
    (h : ∀ t ∈ separatedTokens separator item as, p t) :
    ∀ a ∈ as, ∀ t ∈ item a, p t := by
  induction as with
  | nil => exact List.forall_mem_nil _
  | cons a as ih =>
      cases as with
      | nil => exact List.forall_mem_singleton.mpr h
      | cons b as =>
          obtain ⟨front, others⟩ := List.forall_mem_append.mp h
          obtain ⟨first, -⟩ := List.forall_mem_append.mp front
          exact List.forall_mem_cons.mpr ⟨first, ih others⟩

theorem writes_names {names : List String} (h : ∀ t ∈ commaTokens nameTokens names, t.Genuine) :
    Writes (Query.commaSeparated names) (commaTokens nameTokens names) := by
  have each : ∀ name ∈ names, Writes name (nameTokens name) := fun name mem =>
    writes_token (forall_mem_separatedTokens h name mem _ List.mem_cons_self)
  simpa using writes_commaSeparated each

end

end TemporalDB.Sql
