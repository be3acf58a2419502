import TemporalDB.Proofs.Outcome
import TemporalDB.Sql.Cursor

/-!
# What parsers take

A cursor passes tokens on the way to another cursor. A parser reads a kind of phrase if it gives
something just where the cursor passes a phrase of that kind, and then what the phrase means. What a
phrase means may depend on the number of placeholders before it, from which its own are counted.
Items with separators are read as far as separators go on (`separated_eq_ok_iff`).
-/

namespace TemporalDB.Sql

open Text

variable {c c' c₁ : Cursor} {t u : Token} {ts us : List Token}

namespace Cursor

/-- The token is next, and after it comes the other cursor. -/
def Takes (c : Cursor) (t : Token) (c' : Cursor) : Prop :=
  ∃ line rest, c.rest = ⟨t, line⟩ :: rest ∧
    c' = ⟨rest, c.lastLine, c.params + if t = .param then 1 else 0⟩

/-- The tokens are next, and after them comes the other cursor. -/
inductive Passes : Cursor → List Token → Cursor → Prop
  | nil (c : Cursor) : Passes c [] c
  | cons {c c₁ c' : Cursor} {t : Token} {ts : List Token} (first : c.Takes t c₁)
      (others : Passes c₁ ts c') : Passes c (t :: ts) c'

theorem Takes.passes (h : c.Takes t c') : c.Passes [t] c' := .cons h (.nil _)

theorem passes_nil_iff : c.Passes [] c' ↔ c = c' := by
  constructor
  · rintro ⟨⟩
    rfl
  · rintro rfl
    exact .nil c

theorem passes_cons_iff : c.Passes (t :: ts) c' ↔ ∃ c₁, c.Takes t c₁ ∧ c₁.Passes ts c' := by
  constructor
  · rintro ⟨⟩
    exact ⟨_, ‹_›, ‹_›⟩
  · rintro ⟨_, first, others⟩
    exact .cons first others

theorem passes_singleton_iff : c.Passes [t] c' ↔ c.Takes t c' := by
  constructor
  · rintro (_ | ⟨first, ⟨⟩⟩)
    exact first
  · exact Takes.passes

theorem passes_append_iff :
    c.Passes (ts ++ us) c' ↔ ∃ c₁, c.Passes ts c₁ ∧ c₁.Passes us c' := by
  induction ts generalizing c with
  | nil =>
      rw [List.nil_append]
      constructor
      · exact fun h => ⟨c, .nil c, h⟩
      · rintro ⟨_, ⟨⟩, h⟩
        exact h
  | cons t ts ih =>
      rw [List.cons_append, passes_cons_iff]
      constructor
      · rintro ⟨c₁, first, others⟩
        obtain ⟨c₂, front, back⟩ := ih.mp others
        exact ⟨c₂, .cons first front, back⟩
      · rintro ⟨c₂, _ | ⟨first, front⟩, back⟩
        exact ⟨_, first, ih.mpr ⟨c₂, front, back⟩⟩

theorem Passes.append (h : c.Passes ts c₁) (h' : c₁.Passes us c') : c.Passes (ts ++ us) c' :=
  passes_append_iff.mpr ⟨c₁, h, h'⟩

theorem Takes.params (h : c.Takes t c') : c'.params = c.params + [t].count .param := by
  obtain ⟨line, rest, -, rfl⟩ := h
  simp only [List.count_singleton, beq_iff_eq]

theorem Passes.params (h : c.Passes ts c') : c'.params = c.params + ts.count .param := by
  induction h with
  | nil => rfl
  | @cons c c₁ c' t ts first others ih =>
      rw [ih, first.params, Nat.add_assoc, ← List.count_append, List.singleton_append]

/-- What is passed is what was left, up to what is left then. -/
theorem Passes.map_token (h : c.Passes ts c') :
    c.rest.map (·.token) = ts ++ c'.rest.map (·.token) := by
  induction h with
  | nil => rfl
  | cons first others ih =>
      obtain ⟨line, rest, hrest, rfl⟩ := first
      rw [hrest, List.map_cons, ih, List.cons_append]

theorem Passes.params_of_count (h : c.Passes ts c') (none : ts.count .param = 0) :
    c'.params = c.params := by
  rw [h.params, none, Nat.add_zero]

theorem Takes.params_of_ne (h : c.Takes t c') (other : t ≠ .param) : c'.params = c.params :=
  h.passes.params_of_count (List.count_eq_zero.mpr (by simpa using other.symm))

theorem Passes.length (h : c.Passes ts c') : c.rest.length = ts.length + c'.rest.length := by
  have same := congrArg List.length h.map_token
  simpa using same

theorem passes_all (c : Cursor) : ∃ c', c.Passes (c.rest.map (·.token)) c' ∧ c'.rest = [] := by
  obtain ⟨rest, last, params⟩ := c
  induction rest generalizing params with
  | nil => exact ⟨_, .nil _, rfl⟩
  | cons l rest ih =>
      obtain ⟨c', passes, ended⟩ := ih (params + if l.token = .param then 1 else 0)
      exact ⟨c', .cons ⟨l.line, rest, rfl, rfl⟩ passes, ended⟩

theorem Takes.next (h : c.Takes t c') : c.next = some t := by
  obtain ⟨line, rest, hrest, -⟩ := h
  rw [Cursor.next, hrest]
  rfl

theorem Passes.next (h : c.Passes (t :: ts) c') : c.next = some t := by
  obtain ⟨_, first, -⟩ := passes_cons_iff.mp h
  exact first.next

theorem Passes.rest_ne_nil (h : c.Passes (t :: ts) c') : c.rest ≠ [] := by
  intro ended
  have next := h.next
  rw [Cursor.next, ended] at next
  cases next

theorem exists_takes (h : c.next = some t) : ∃ c', c.Takes t c' := by
  obtain ⟨l, hl, rfl⟩ := Option.map_eq_some_iff.mp h
  obtain ⟨rest, hrest⟩ := List.head?_eq_some_iff.mp hl
  exact ⟨_, l.line, rest, hrest, rfl⟩

theorem Takes.unique (h : c.Takes t c₁) (h' : c.Takes t c') : c₁ = c' := by
  obtain ⟨line, rest, hrest, rfl⟩ := h
  obtain ⟨line', rest', hrest', rfl⟩ := h'
  cases hrest.symm.trans hrest'
  rfl

end Cursor

namespace Parser

variable {α β : Type} {p : Parser α} {q : α → Parser β} {a : α} {b : β}

/-! ## Putting parsers together -/

theorem bind_eq_ok : (p >>= q) c = .ok (b, c') ↔
    ∃ a c₁, p c = .ok (a, c₁) ∧ q a c₁ = .ok (b, c') := by
  refine bind_eq_ok_iff.trans ?_
  constructor
  · rintro ⟨⟨a, c₁⟩, ha, hb⟩
    exact ⟨a, c₁, ha, hb⟩
  · rintro ⟨a, c₁, ha, hb⟩
    exact ⟨(a, c₁), ha, hb⟩

theorem pure_eq_ok {a' : α} : (pure a : Parser α) c = .ok (a', c') ↔ a = a' ∧ c = c' := by
  constructor
  · rintro ⟨⟩
    exact ⟨rfl, rfl⟩
  · rintro ⟨rfl, rfl⟩
    rfl

theorem map_eq_ok {f : α → β} : (f <$> p) c = .ok (b, c') ↔
    ∃ a, p c = .ok (a, c') ∧ f a = b := by
  refine bind_eq_ok_iff.trans ?_
  constructor
  · rintro ⟨⟨a, c₁⟩, ha, hb⟩
    cases hb
    exact ⟨a, ha, rfl⟩
  · rintro ⟨a, ha, rfl⟩
    exact ⟨(a, c'), ha, rfl⟩

theorem run_eq_ok {tokens : List Located} :
    p.run tokens = .ok a ↔ ∃ c', p (Cursor.start tokens) = .ok (a, c') := by
  unfold run
  cases p (Cursor.start tokens) with
  | error e => simp [Except.map]
  | ok x =>
      obtain ⟨b, c'⟩ := x
      simp [Except.map]

/-! ## Tokens -/

theorem sign?_eq_true (h : t ≠ .param) : sign? t c = .ok (true, c') ↔ c.Takes t c' := by
  unfold sign? Cursor.Takes
  obtain ⟨_ | ⟨⟨u, line⟩, rest⟩, last, params⟩ := c
  · simp
  · by_cases same : u = t
    · subst same
      simp [h, eq_comm]
    · simp [same]

theorem sign?_eq_false : sign? t c = .ok (false, c') ↔ c.next ≠ some t ∧ c = c' := by
  unfold sign? Cursor.next
  obtain ⟨_ | ⟨⟨u, line⟩, rest⟩, last, params⟩ := c
  · simp
  · by_cases same : u = t <;> simp [same]

theorem sign_eq_ok {u : Unit} (h : t ≠ .param) : sign t c = .ok (u, c') ↔ c.Takes t c' := by
  unfold sign
  rw [bind_eq_ok, ← sign?_eq_true h]
  constructor
  · rintro ⟨_ | _, c₁, taken, done⟩
    · cases done
    · cases done
      exact taken
  · intro taken
    exact ⟨true, c', taken, rfl⟩

theorem identifier_eq_ok {w : String} : identifier c = .ok (w, c') ↔ c.Takes (.word w) c' := by
  unfold identifier Cursor.Takes
  obtain ⟨_ | ⟨⟨u, line⟩, rest⟩, last, params⟩ := c
  · simp [unexpected]
  · cases u <;> simp [unexpected, eq_comm]

theorem comparator_eq_ok {op : Comparator} :
    comparator c = .ok (op, c') ↔ c.Takes (.comparator op) c' := by
  unfold comparator Cursor.Takes
  obtain ⟨_ | ⟨⟨u, line⟩, rest⟩, last, params⟩ := c
  · simp [unexpected]
  · cases u <;> simp [unexpected, eq_comm]

theorem count_eq_ok {k : Nat} : count c = .ok (k, c') ↔
    ∃ n, c.Takes (.number n) c' ∧ readCount bound32 n.toList = some k := by
  unfold count Cursor.Takes
  obtain ⟨_ | ⟨⟨u, line⟩, rest⟩, last, params⟩ := c
  · simp [unexpected]
  · cases u with
    | number n =>
        cases read : readCount bound32 n.toList <;>
          simp [unexpected, read, eq_comm, and_comm]
    | _ => simp [unexpected]

theorem opens_eq_ok {b : Bool} :
    opens c = .ok (b, c') ↔ decide (c.next = some .leftParen) = b ∧ c = c' := pure_eq_ok

theorem atEnd_eq_ok {b : Bool} : atEnd c = .ok (b, c') ↔ c.rest.isEmpty = b ∧ c = c' := pure_eq_ok

/-! ## Keywords -/

end Parser

/-- The token is the keyword, but for the case of its letters. -/
def IsKeyword (keyword : String) (t : Token) : Prop :=
  ∃ w, t = .word w ∧ sameName w keyword = true

def Keywords (keywords : List String) (ts : List Token) : Prop :=
  List.Forall₂ IsKeyword keywords ts

theorem Keywords.count {ks : List String} (h : Keywords ks ts) : ts.count .param = 0 := by
  induction h with
  | nil => rfl
  | cons first others ih =>
      obtain ⟨w, rfl, -⟩ := first
      rw [List.count_cons_of_ne (by simp), ih]

theorem IsKeyword.sameName {k k' : String} (h : IsKeyword k t) (h' : IsKeyword k' t) :
    sameName k k' = true := by
  obtain ⟨w, rfl, first⟩ := h
  obtain ⟨_, ⟨⟩, second⟩ := h'
  unfold Text.sameName at first second ⊢
  rw [decide_eq_true_eq] at first second ⊢
  exact first.symm.trans second

theorem isKeyword_self (k : String) : IsKeyword k (.word k) :=
  ⟨k, rfl, decide_eq_true rfl⟩

theorem keywords_self (ks : List String) : Keywords ks (ks.map .word) := by
  induction ks with
  | nil => exact .nil
  | cons k ks ih => exact .cons (isKeyword_self k) ih

namespace Parser

variable {α β : Type} {p : Parser α} {a : α} {ks : List String} {k : String}

theorem keywords?_cons_eq_true : keywords? (k :: ks) c = .ok (true, c') ↔
    ∃ t c₁, IsKeyword k t ∧ c.Takes t c₁ ∧ keywords? ks c₁ = .ok (true, c') := by
  unfold keywords? Cursor.Takes IsKeyword
  obtain ⟨_ | ⟨⟨u, line⟩, rest⟩, last, params⟩ := c
  · simp [afterKeywords]
  · cases u with
    | word w =>
        by_cases same : sameName w k = true
        · cases following : afterKeywords ks rest <;> simp [afterKeywords, same, following]
        · simp [afterKeywords, same]
    | _ => simp [afterKeywords]

theorem keywords?_eq_true :
    keywords? ks c = .ok (true, c') ↔ ∃ ts, Keywords ks ts ∧ c.Passes ts c' := by
  induction ks generalizing c with
  | nil =>
      constructor
      · rintro ⟨⟩
        exact ⟨[], .nil, .nil c⟩
      · rintro ⟨_, ⟨⟩, ⟨⟩⟩
        rfl
  | cons k ks ih =>
      rw [keywords?_cons_eq_true]
      constructor
      · rintro ⟨t, c₁, first, taken, others⟩
        obtain ⟨ts, keywords, passes⟩ := ih.mp others
        exact ⟨t :: ts, .cons first keywords, .cons taken passes⟩
      · rintro ⟨_, ⟨⟩, _ | ⟨taken, passes⟩⟩
        exact ⟨_, _, ‹_›, taken, ih.mpr ⟨_, ‹_›, passes⟩⟩

theorem keywords?_eq_false : keywords? ks c = .ok (false, c') ↔
    (¬∃ ts c₁, Keywords ks ts ∧ c.Passes ts c₁) ∧ c = c' := by
  have taken : (∃ ts c₁, Keywords ks ts ∧ c.Passes ts c₁) ↔
      ∃ c₁, keywords? ks c = .ok (true, c₁) := by
    simp only [keywords?_eq_true]
    exact exists_comm
  rw [taken]
  unfold keywords?
  cases afterKeywords ks c.rest <;> simp

theorem keywords?_of_next (h : ∀ t ∈ c.next, ¬IsKeyword k t) :
    keywords? (k :: ks) c = .ok (false, c) := by
  refine keywords?_eq_false.mpr ⟨?_, rfl⟩
  rintro ⟨_, c₁, ⟨⟩, passes⟩
  exact h _ passes.next ‹_›

theorem keyword?_bind_eq_ok {p' : Parser α} :
    (keyword? k >>= fun b => if b then p else p') c = .ok (a, c') ↔
      (∃ ts c₁, Keywords [k] ts ∧ c.Passes ts c₁ ∧ p c₁ = .ok (a, c')) ∨
      (∀ t ∈ c.next, ¬IsKeyword k t) ∧ p' c = .ok (a, c') := by
  rw [bind_eq_ok]
  constructor
  · rintro ⟨_ | _, c₁, asked, h⟩
    · obtain ⟨none, rfl⟩ := keywords?_eq_false.mp asked
      refine .inr ⟨fun t ht isKeyword => none ?_, h⟩
      obtain ⟨c', taken⟩ := Cursor.exists_takes ht
      exact ⟨[t], c', .cons isKeyword .nil, taken.passes⟩
    · obtain ⟨ts, keyword, passes⟩ := keywords?_eq_true.mp asked
      exact .inl ⟨ts, c₁, keyword, passes, h⟩
  · rintro (⟨ts, c₁, keyword, passes, h⟩ | ⟨none, h⟩)
    · exact ⟨true, c₁, keywords?_eq_true.mpr ⟨ts, keyword, passes⟩, h⟩
    · exact ⟨false, c, keywords?_of_next none, h⟩

theorem keyword_eq_ok {u : Unit} :
    keyword k c = .ok (u, c') ↔ ∃ ts, Keywords [k] ts ∧ c.Passes ts c' := by
  rw [← keywords?_eq_true]
  unfold keyword keyword?
  rw [bind_eq_ok]
  constructor
  · rintro ⟨_ | _, c₁, taken, done⟩
    · cases done
    · cases done
      exact taken
  · intro taken
    exact ⟨true, c', taken, rfl⟩

end Parser

/-! ## Phrases -/

/-- What phrases of a kind mean: after a number of placeholders, tokens and what they mean. -/
abbrev Phrase (α : Type) := Nat → List Token → α → Prop

/-- Every phrase of the kind has a token. -/
def Phrase.Inhabited {α : Type} (P : Phrase α) : Prop := ∀ {n ts a}, P n ts a → ts ≠ []

/-- Phrases with separators between them, at least one. -/
inductive Separated {α : Type} (separator : List Token → Prop) (item : Phrase α) :
    Phrase (List α)
  | last {n : Nat} {ts : List Token} {a : α} (h : item n ts a) :
      Separated separator item n ts [a]
  | more {n : Nat} {ts us vs : List Token} {a : α} {as : List α} (h : item n ts a)
      (between : separator us) (others : Separated separator item (n + ts.count .param) vs as) :
      Separated separator item n (ts ++ us ++ vs) (a :: as)

theorem Separated.ne_nil {α : Type} {separator : List Token → Prop} {item : Phrase α} {n : Nat}
    {as : List α} (h : Separated separator item n ts as) : as ≠ [] := by
  cases h <;> exact List.cons_ne_nil _ _

namespace Parser

variable {α β : Type} {p : Parser α} {a : α} {as : List α} {P : Phrase α}
  {separator : Parser Bool} {S : List Token → Prop}

/-- The parser gives something just where it passes a phrase, and then what the phrase means. -/
def Reads (p : Parser α) (P : Phrase α) : Prop :=
  ∀ {c a c'}, p c = .ok (a, c') ↔ ∃ ts, c.Passes ts c' ∧ P c.params ts a

/-- The parser reads the kind of phrase wherever the next token after it is among some. -/
def ReadsBefore (p : Parser α) (follow : Option Token → Prop) (P : Phrase α) : Prop :=
  ∀ {c a c'}, follow c'.next → (p c = .ok (a, c') ↔ ∃ ts, c.Passes ts c' ∧ P c.params ts a)

structure TakesAny (separator : Parser Bool) (S : List Token → Prop) : Prop where
  taken : ∀ {c c'}, separator c = .ok (true, c') ↔ ∃ us, S us ∧ c.Passes us c'
  left : ∀ {c c'}, separator c = .ok (false, c') → c = c'
  count : ∀ {us}, S us → us.count .param = 0

theorem takesAny_sign? {t : Token} (h : t ≠ .param) : TakesAny (sign? t) (· = [t]) where
  taken := by
    intro c c'
    rw [sign?_eq_true h]
    exact ⟨fun taken => ⟨_, rfl, taken.passes⟩,
      fun ⟨_, h, passes⟩ => Cursor.passes_singleton_iff.mp (h ▸ passes)⟩
  left h := (sign?_eq_false.mp h).2
  count := by
    rintro _ rfl
    simp [h]

theorem takesAny_keywords? {ks : List String} : TakesAny (keywords? ks) (Keywords ks) where
  taken := keywords?_eq_true
  left h := (keywords?_eq_false.mp h).2
  count := Keywords.count

/-- Every item takes a token, so the bound is not reached while there is an item to come. -/
theorem exists_bound {bound : Nat} (some : ts ≠ []) (passes : c.Passes ts c₁)
    (le : c.rest.length ≤ bound) : ∃ rest, bound = rest + 1 ∧ c₁.rest.length ≤ rest := by
  have pos := List.length_pos_iff.mpr some
  have length := passes.length
  exact ⟨bound - 1, by omega, by omega⟩

section

variable (hp : p.Reads P) (some : P.Inhabited) (hs : TakesAny separator S)

include hp some hs in
theorem exists_of_separatedUpTo {bound : Nat} (le : c.rest.length ≤ bound)
    (h : separatedUpTo separator p bound c = .ok (as, c')) :
    (∃ ts, c.Passes ts c' ∧ Separated S P c.params ts as) ∧ separator c' = .ok (false, c') := by
  induction bound generalizing c as with
  | zero =>
      -- no token is left for the item that was read
      obtain ⟨a, c₁, ha, -⟩ := bind_eq_ok.mp h
      obtain ⟨ts, passes, ha⟩ := hp.mp ha
      obtain ⟨_, ⟨⟩, -⟩ := exists_bound (some ha) passes le
  | succ bound ih =>
      obtain ⟨a, c₁, ha, h⟩ := bind_eq_ok.mp h
      obtain ⟨ts, passes, ha⟩ := hp.mp ha
      obtain ⟨_, ⟨⟩, shorter⟩ := exists_bound (some ha) passes le
      obtain ⟨more, c₂, hmore, h⟩ := bind_eq_ok.mp h
      cases more with
      | true =>
          obtain ⟨us, between, passes'⟩ := hs.taken.mp hmore
          obtain ⟨others, c₃, hothers, h⟩ := bind_eq_ok.mp h
          obtain ⟨rfl, rfl⟩ := pure_eq_ok.mp h
          have length := passes'.length
          obtain ⟨⟨vs, passes'', hvs⟩, stop⟩ := ih (by omega) hothers
          rw [passes'.params, passes.params, hs.count between] at hvs
          exact ⟨⟨ts ++ us ++ vs, (passes.append passes').append passes'',
            .more ha between hvs⟩, stop⟩
      | false =>
          obtain rfl := hs.left hmore
          obtain ⟨rfl, rfl⟩ := pure_eq_ok.mp h
          exact ⟨⟨ts, passes, .last ha⟩, hmore⟩

include hp some hs in
theorem separatedUpTo_of_separated {n bound : Nat} (h : Separated S P n ts as)
    (params : c.params = n) (le : c.rest.length ≤ bound) (passes : c.Passes ts c')
    (stop : separator c' = .ok (false, c')) :
    separatedUpTo separator p bound c = .ok (as, c') := by
  induction h generalizing c bound with
  | last h =>
      obtain ⟨bound, rfl, -⟩ := exists_bound (some h) passes le
      refine bind_eq_ok.mpr ⟨_, c', hp.mpr ⟨_, passes, params ▸ h⟩, ?_⟩
      exact bind_eq_ok.mpr ⟨false, c', stop, rfl⟩
  | more h between others ih =>
      obtain ⟨c₂, passes, passes''⟩ := Cursor.passes_append_iff.mp passes
      obtain ⟨c₁, passes, passes'⟩ := Cursor.passes_append_iff.mp passes
      obtain ⟨bound, rfl, shorter⟩ := exists_bound (some h) passes le
      refine bind_eq_ok.mpr ⟨_, c₁, hp.mpr ⟨_, passes, params ▸ h⟩, ?_⟩
      refine bind_eq_ok.mpr ⟨true, c₂, hs.taken.mpr ⟨_, between, passes'⟩, ?_⟩
      refine bind_eq_ok.mpr ⟨_, c', ih ?_ ?_ passes'' , rfl⟩
      · rw [passes'.params, passes.params, params, hs.count between, Nat.add_zero]
      · have length := passes'.length
        omega

include hp some hs in
/-- **Items are read as far as separators go on.** -/
theorem separated_eq_ok_iff : separated separator p c = .ok (as, c') ↔
    (∃ ts, c.Passes ts c' ∧ Separated S P c.params ts as) ∧ separator c' = .ok (false, c') := by
  constructor
  · exact exists_of_separatedUpTo hp some hs (Nat.le_refl _)
  · rintro ⟨⟨ts, passes, h⟩, stop⟩
    exact separatedUpTo_of_separated hp some hs h rfl (Nat.le_refl _) passes stop

end

/-! ## Repeated steps -/

/-- Steps that are taken one after the other, until the step declines. Every step takes a token. -/
inductive Steps (step : α → Parser (Option α)) : α → Cursor → α → Cursor → Prop
  | done {a : α} {c : Cursor} (declined : step a c = .ok (none, c)) : Steps step a c a c
  | more {a b z : α} {c c₁ c' : Cursor} (taken : step a c = .ok (some b, c₁))
      (shorter : c₁.rest.length < c.rest.length) (others : Steps step b c₁ z c') :
      Steps step a c z c'

theorem repeated_eq_ok {step : α → Parser (Option α)} {z : α} (h : Steps step a c z c') :
    repeated step a c = .ok (z, c') := by
  have upTo : ∀ bound, c.rest.length ≤ bound → repeatUpTo step bound a c = .ok (z, c') := by
    induction h with
    | done declined =>
        rintro (_ | bound) -
        · rfl
        · exact bind_eq_ok.mpr ⟨none, _, declined, rfl⟩
    | more taken shorter others ih =>
        rintro (_ | bound) le
        · omega
        · exact bind_eq_ok.mpr ⟨_, _, taken, ih bound (by omega)⟩
  exact upTo _ (Nat.le_refl _)

end Parser

/-! ## Names and lists -/

inductive IsName : Phrase String
  | word (n : Nat) (w : String) : IsName n [.word w] w

abbrev Listed {α : Type} (item : Phrase α) : Phrase (List α) := Separated (· = [.comma]) item

inductive Enclosed {α : Type} (item : Phrase α) : Phrase (List α)
  | enclose {n : Nat} {ts : List Token} {as : List α} (h : Listed item n ts as) :
      Enclosed item n ([.leftParen] ++ ts ++ [.rightParen]) as

open TemporalDB.Sql.Parser

theorem reads_identifier : identifier.Reads IsName := by
  intro c w c'
  rw [identifier_eq_ok]
  constructor
  · intro taken
    exact ⟨_, taken.passes, .word _ w⟩
  · rintro ⟨_, passes, ⟨⟩⟩
    exact Cursor.passes_singleton_iff.mp passes

theorem inhabited_isName : IsName.Inhabited := by
  rintro _ _ _ ⟨⟩
  exact List.cons_ne_nil _ _

section

variable {α : Type} {p : Parser α} {P : Phrase α} (hp : p.Reads P) (some : P.Inhabited)

include hp some

theorem reads_commaSeparated :
    (commaSeparated p).ReadsBefore (· ≠ .some .comma) (Listed P) := by
  intro c as c' other
  refine (separated_eq_ok_iff hp some (takesAny_sign? (by simp))).trans ?_
  exact and_iff_left (sign?_eq_false.mpr ⟨other, rfl⟩)

theorem reads_parenthesized : (parenthesized p).Reads (Enclosed P) := by
  intro c as c'
  simp only [parenthesized, bind_eq_ok, pure_eq_ok]
  constructor
  · rintro ⟨⟨⟩, c₁, hopen, _, c₂, has, ⟨⟩, _, hclose, rfl, rfl⟩
    rw [sign_eq_ok (by simp)] at hopen hclose
    obtain ⟨ts, passes, has⟩ := (reads_commaSeparated hp some (by simp [hclose.next])).mp has
    rw [hopen.params_of_ne (by simp)] at has
    exact ⟨_, (hopen.passes.append passes).append hclose.passes, .enclose has⟩
  · rintro ⟨_, passes, ⟨has⟩⟩
    simp only [Cursor.passes_append_iff, Cursor.passes_singleton_iff] at passes
    obtain ⟨c₂, ⟨c₁, hopen, passes⟩, hclose⟩ := passes
    rw [← hopen.params_of_ne (by simp)] at has
    exact ⟨(), c₁, (sign_eq_ok (by simp)).mpr hopen, as, c₂,
      (reads_commaSeparated hp some (by simp [hclose.next])).mpr ⟨_, passes, has⟩,
      (), c', (sign_eq_ok (by simp)).mpr hclose, rfl, rfl⟩

end

end TemporalDB.Sql
