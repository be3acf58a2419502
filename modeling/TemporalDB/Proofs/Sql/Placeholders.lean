import TemporalDB.Proofs.Sql.Grammar

/-!
# Parameters of a query that was read

Every placeholder of a text is one parameter of the query that the text is, and the parameters are
numbered from zero in the order in which they stand. So a query that was read needs as many
parameters as its text has placeholders.
-/

namespace TemporalDB

def Expr.place? : Expr → Option Nat
  | .param i => some i
  | .literal _ => none

def places (es : List Expr) : List Nat := es.filterMap Expr.place?

namespace Sql

open TemporalDB.Sql.Parser

def placeholderCount (ts : List Located) : Nat := ts.countP fun t => t.token = .param

def placeholders (text : String) : Nat := ((tokens text).toOption.map placeholderCount).getD 0

/-- The values that were read hold the parameters that were read, in order, and with the
placeholders to come they are `total`. -/
structure Counted (total : Nat) (es : List Expr) (c : Cursor) : Prop where
  places : places es = List.range c.params
  total : c.params + placeholderCount c.rest = total

theorem placeholderCount_cons_of_ne {t : Located} {ts : List Located} (h : t.token ≠ .param) :
    placeholderCount (t :: ts) = placeholderCount ts := by
  rw [placeholderCount, List.countP_cons_of_neg (by simpa using h)]
  rfl

theorem Counted.skip {total : Nat} {es : List Expr} {c : Cursor} {t : Located} {ts : List Located}
    (h : Counted total es c) (hc : c.rest = t :: ts) (ht : t.token ≠ .param) :
    Counted total es { c with rest := ts } := by
  refine ⟨h.places, ?_⟩
  rw [← h.total, hc, placeholderCount_cons_of_ne ht]

namespace Parser

variable {α β : Type} {p : Parser α} {q : α → Parser β} {before : List Expr}
  {mid : α → List Expr} {after : β → List Expr}

/-- From values that hold the parameters read so far, a parser goes on to more values that do. -/
def Counts (p : Parser α) (before : List Expr) (after : α → List Expr) : Prop :=
  ∀ total c a rest, Counted total before c → p c = .ok (a, rest) → Counted total (after a) rest

/-- A parser that reads no parameter. -/
def Passes (p : Parser α) : Prop := ∀ before, p.Counts before fun _ => before

namespace Counts

theorem pure {a : α} : Counts (Pure.pure a) before fun _ => before := by
  rintro total c a rest h ⟨⟩
  exact h

theorem pure_of {a : α} {after : α → List Expr} (h : after a = before) :
    Counts (Pure.pure a) before after := by
  rintro total c a rest hc ⟨⟩
  rwa [h]

theorem bind (hp : p.Counts before mid) (hq : ∀ a, (q a).Counts (mid a) after) :
    (p >>= q).Counts before after := by
  intro total c b rest hc h
  obtain ⟨⟨a, c'⟩, ha, hb⟩ := bind_eq_ok_iff.mp h
  exact hq a total c' b rest (hp total c a c' hc ha) hb

theorem map {p : Parser α} {f : α → β} (hp : p.Counts before mid) (h : ∀ a, after (f a) = mid a) :
    (f <$> p).Counts before after := by
  intro total c b rest hc hb
  obtain ⟨x, hx, hb⟩ := bind_eq_ok_iff.mp hb
  cases hb
  rw [h]
  exact hp total c x.1 x.2 hc hx

theorem seq (hp : p.Passes) (hq : ∀ a, (q a).Counts before after) :
    (p >>= q).Counts before after := (hp before).bind hq

theorem ite {cond : Prop} [Decidable cond] {p' : Parser β} {p : Parser β}
    (hp : p.Counts before after) (hp' : p'.Counts before after) :
    (if cond then p else p').Counts before after := by
  split
  · exact hp
  · exact hp'

theorem fail {fault : Fault} : Counts (Parser.fail fault) before after := by
  rintro total c a rest - ⟨⟩

theorem unexpected {expected : String} : Counts (Parser.unexpected expected) before after := by
  rintro total c a rest - ⟨⟩

end Counts

/-! ## Parsers that read no parameter -/

theorem passes_sign? {t : Token} (ht : t ≠ .param) : (sign? t).Passes := by
  intro before total c a rest hc h
  unfold sign? at h
  split at h
  · next u line rest' hr =>
      split_ifs at h with same
      · cases h
        exact hc.skip hr (by rw [same]; exact ht)
      · cases h
        exact hc
  · cases h
    exact hc

theorem passes_sign {t : Token} (ht : t ≠ .param) : (sign t).Passes := fun _ =>
  .seq (passes_sign? ht) fun _ => .ite .pure .unexpected

theorem placeholderCount_afterKeywords {ks : List String} {ts rest : List Located}
    (h : afterKeywords ks ts = some rest) : placeholderCount rest = placeholderCount ts := by
  induction ks generalizing ts with
  | nil =>
      cases h
      rfl
  | cons k ks ih =>
      unfold afterKeywords at h
      split at h
      · next hk => cases hk
      · next hk =>
          cases hk
          split_ifs at h
          rw [ih h, placeholderCount_cons_of_ne (by simp)]
      · cases h

theorem passes_keywords? {ks : List String} : (keywords? ks).Passes := by
  intro before total c a rest hc h
  unfold keywords? at h
  split at h
  · next rest' hr =>
      cases h
      refine ⟨hc.places, ?_⟩
      rw [← hc.total, placeholderCount_afterKeywords hr]
  · cases h
    exact hc

theorem passes_keyword {k : String} : (keyword k).Passes := fun _ =>
  .seq passes_keywords? fun _ => .ite .pure .unexpected

theorem passes_identifier : identifier.Passes := by
  intro before total c a rest hc h
  unfold identifier at h
  split at h
  · next w line rest' hr =>
      cases h
      exact hc.skip hr (by simp)
  · cases h

theorem passes_comparator : comparator.Passes := by
  intro before total c a rest hc h
  unfold comparator at h
  split at h
  · next op line rest' hr =>
      cases h
      exact hc.skip hr (by simp)
  · cases h

theorem passes_opens : opens.Passes := by
  rintro before total c a rest hc ⟨⟩
  exact hc

/-! ## Values and lists of them -/

theorem counts_expr : expr.Counts before fun e => before ++ [e] := by
  have literal : ∀ {l : Literal}, places (before ++ [.literal l]) = places before := by
    intro l
    rw [places, List.filterMap_append]
    exact List.append_nil _
  intro total c e rest hc h
  unfold expr at h
  split at h
  · next line rest' hr =>
      -- the parameter has the number of those read before it
      cases h
      refine ⟨?_, ?_⟩
      · have next : places (before ++ [.param c.params]) = places before ++ [c.params] := by
          rw [places, List.filterMap_append]
          rfl
        rw [next, hc.places, List.range_succ]
      · have one : placeholderCount c.rest = placeholderCount rest' + 1 := by
          rw [hr, placeholderCount, List.countP_cons_of_pos (by simp)]
          rfl
        show c.params + 1 + placeholderCount rest' = total
        rw [← hc.total, one]
        omega
  · next n line rest' hr =>
      cases h
      have kept := hc.skip hr (by simp)
      exact ⟨literal.trans kept.places, kept.total⟩
  · next s line rest' hr =>
      cases h
      have kept := hc.skip hr (by simp)
      exact ⟨literal.trans kept.places, kept.total⟩
  · cases h

/-- Items with separators count their values one after the other. -/
theorem counts_separated {separator : Parser Bool} {values : α → List Expr}
    (hs : separator.Passes) (hp : ∀ before, p.Counts before fun a => before ++ values a) :
    (separated separator p).Counts before fun as => before ++ as.flatMap values := by
  -- how much was counted before is left open, since each item adds its own
  have upTo : ∀ bound before, (separatedUpTo separator p bound).Counts before
      fun as => before ++ as.flatMap values := by
    intro bound
    induction bound with
    | zero =>
        intro before
        refine (hp before).bind fun a => .pure_of ?_
        rw [List.flatMap_singleton]
    | succ bound ih =>
        intro before
        refine (hp before).bind fun a => .seq hs fun more => .ite ?_ ?_
        · refine (ih _).bind fun others => .pure_of ?_
          rw [List.flatMap_cons, List.append_assoc]
        · refine .pure_of ?_
          rw [List.flatMap_singleton]
  intro total c as rest hc h
  exact upTo _ before total c as rest hc h

theorem counts_parenthesized {values : α → List Expr}
    (hp : ∀ before, p.Counts before fun a => before ++ values a) :
    (parenthesized p).Counts before fun as => before ++ as.flatMap values := by
  refine .seq (passes_sign (by simp)) fun _ => ?_
  refine (counts_separated (passes_sign? (by simp)) hp).bind fun as => ?_
  exact .seq (passes_sign (by simp)) fun _ => .pure_of rfl

/-- Items of which none has a parameter have none together. -/
theorem Counts.congr {after' : α → List Expr} {p : Parser α} (hp : p.Counts before after')
    {after : α → List Expr} (h : ∀ a, after' a = after a) : p.Counts before after :=
  (funext h : after' = after) ▸ hp

theorem Passes.appends (hp : p.Passes) (before : List Expr) :
    p.Counts before fun _ => before ++ [] := (hp before).congr fun _ => (List.append_nil _).symm

theorem passes_separated {separator : Parser Bool} (hs : separator.Passes) (hp : p.Passes) :
    (separated separator p).Passes := fun before =>
  (counts_separated hs hp.appends).congr fun as => by simp

theorem passes_parenthesized (hp : p.Passes) : (parenthesized p).Passes := fun before =>
  (counts_parenthesized hp.appends).congr fun as => by simp

end Parser

/-! ## Statements -/

open TemporalDB.Sql.Parser.Counts

theorem counts_comparison (before : List Expr) :
    comparison.Counts before fun c => before ++ [c.value] :=
  .seq passes_identifier fun _ => .seq passes_comparator fun _ =>
    counts_expr.bind fun _ => .pure_of rfl

theorem counts_assignment (before : List Expr) :
    assignment.Counts before fun a => before ++ [a.value] :=
  .seq passes_identifier fun _ => .seq (passes_sign (by simp)) fun _ =>
    counts_expr.bind fun _ => .pure_of rfl

theorem counts_condition {before : List Expr} :
    condition.Counts before fun condition => before ++ condition.map (·.value) := by
  unfold condition
  refine .seq passes_keywords? fun _ => .ite ?_ ?_
  · refine (counts_separated passes_keywords? counts_comparison).congr fun cs => ?_
    rw [List.map_eq_flatMap]
  · exact .pure_of (List.append_nil _)

theorem counts_insertStatement : insertStatement.Counts [] Statement.values := by
  unfold insertStatement
  refine .seq passes_keyword fun _ => .seq passes_identifier fun table =>
    .seq passes_opens fun opening => ?_
  extract_lets values
  have inserts : ∀ columns, (values columns).Counts [] Statement.values := by
    intro columns
    refine .seq passes_keyword fun _ => ?_
    refine (counts_parenthesized fun before => counts_expr).bind fun items => ?_
    have same : items = [] ++ items.flatMap fun e => [e] := by simp
    cases columns with
    | none => exact .pure_of same
    | some names => exact .ite (.pure_of same) .fail
  refine .ite ?_ ?_
  · exact ((passes_parenthesized passes_identifier []).map fun _ => rfl).bind inserts
  · exact .bind .pure inserts

theorem counts_updateStatement : updateStatement.Counts [] Statement.values := by
  refine .seq passes_identifier fun table => .seq passes_keyword fun _ => ?_
  refine (counts_separated (passes_sign? (by simp)) counts_assignment).bind fun sets => ?_
  refine counts_condition.bind fun condition => .pure_of ?_
  rw [List.nil_append, ← List.map_eq_flatMap]
  rfl

theorem counts_deleteStatement : deleteStatement.Counts [] Statement.values :=
  .seq passes_keyword fun _ => .seq passes_identifier fun _ =>
    counts_condition.bind fun _ => .pure_of rfl

theorem counts_selectStatement : selectStatement.Counts [] Statement.values := by
  unfold selectStatement
  refine .seq (passes_sign? (by simp)) fun star => ?_
  extract_lets table
  have selects : ∀ projection, (table projection).Counts [] Statement.values := by
    intro projection
    refine .seq passes_keyword fun _ => .seq passes_identifier fun name =>
      .seq passes_keywords? fun dated => ?_
    extract_lets condition
    have conditions : ∀ asOf, (condition asOf).Counts asOf.toList Statement.values := fun asOf =>
      counts_condition.bind fun _ => .pure_of rfl
    have instant : (some <$> expr).Counts [] Option.toList := counts_expr.map fun _ => rfl
    have present : (pure none : Parser (Option Expr)).Counts [] Option.toList := .pure_of rfl
    exact .ite (instant.bind conditions) (present.bind conditions)
  have names : (commaSeparated identifier).Passes :=
    passes_separated (passes_sign? (by simp)) passes_identifier
  refine .ite ?_ ?_
  · exact .bind .pure selects
  · exact ((names []).map fun _ => rfl).bind selects

theorem counts_statement : statement.Counts [] Statement.values := by
  unfold statement
  refine .seq passes_keywords? fun insert => .ite counts_insertStatement ?_
  refine .seq passes_keywords? fun update => .ite counts_updateStatement ?_
  refine .seq passes_keywords? fun delete => .ite counts_deleteStatement ?_
  exact .seq passes_keywords? fun select => .ite counts_selectStatement .unexpected

/-! ## Queries -/

theorem rest_of_query {c rest : Cursor} {q : Query} (h : query c = .ok (q, rest)) :
    rest.rest = [] := by
  obtain ⟨⟨explain, c₁⟩, -, h⟩ := bind_eq_ok_iff.mp h
  obtain ⟨⟨statement, c₂⟩, -, h⟩ := bind_eq_ok_iff.mp h
  obtain ⟨⟨semicolon, c₃⟩, -, h⟩ := bind_eq_ok_iff.mp h
  change (if c₃.rest.isEmpty then Pure.pure ⟨statement, explain⟩
    else Parser.unexpected "end of statement" : Parser Query) c₃ = _ at h
  split_ifs at h with ended
  · cases h
    exact List.isEmpty_iff.mp ended
  · cases h

theorem counts_query : query.Counts [] fun q => q.statement.values := by
  refine .seq passes_keywords? fun explain => counts_statement.bind fun statement => ?_
  refine .seq (passes_sign? (by simp)) fun _ => ?_
  refine .seq (fun _ => ?_) fun ended => .ite (.pure_of rfl) .unexpected
  rintro total c a rest hc ⟨⟩
  exact hc

/-- **The parameters of a query that was read are the placeholders among its tokens**, numbered
from zero in their order. -/
theorem places_of_run {ts : List Located} {q : Query} (h : query.run ts = .ok q) :
    places q.statement.values = List.range (placeholderCount ts) := by
  cases hq : query (Cursor.start ts) with
  | error e =>
      rw [run, hq] at h
      cases h
  | ok x =>
      obtain ⟨q', rest⟩ := x
      rw [run, hq] at h
      cases h
      have start : Counted (placeholderCount ts) [] (Cursor.start ts) := ⟨rfl, Nat.zero_add _⟩
      have counted := counts_query _ _ _ _ start hq
      have all : rest.params = placeholderCount ts := by
        rw [← counted.total, rest_of_query hq]
        rfl
      rw [counted.places, all]

/-- **A query that was read needs as many parameters as there are placeholders.** -/
theorem paramCount_of_run {ts : List Located} {q : Query} (h : query.run ts = .ok q) :
    q.paramCount = placeholderCount ts := by
  -- The parameters needed are one more than the last place, and the places are in order.
  have count : ∀ (es : List Expr) (n : Nat),
      es.foldl countParam n = (places es).foldl (fun n i => max n (i + 1)) n := by
    intro es
    induction es with
    | nil => exact fun n => rfl
    | cons e es ih =>
        intro n
        cases e with
        | param i => exact ih _
        | literal l => exact ih _
  have range : ∀ n, (List.range n).foldl (fun n i => max n (i + 1)) 0 = n := by
    intro n
    induction n with
    | zero => rfl
    | succ n ih =>
        rw [List.range_succ, List.foldl_append, ih]
        exact Nat.max_eq_right (Nat.le_succ n)
  show q.statement.values.foldl countParam 0 = _
  rw [count, places_of_run h, range]

theorem paramCount_of_parseQuery {text : String} {q : Query} (h : parseQuery text = .ok q) :
    q.paramCount = placeholders text := by
  obtain ⟨ts, hts, h⟩ := bind_eq_ok_iff.mp h
  rw [paramCount_of_run h, placeholders, hts]
  rfl

end Sql

end TemporalDB
