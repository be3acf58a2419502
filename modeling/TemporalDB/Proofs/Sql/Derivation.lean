import TemporalDB.Proofs.Sql.Passage
import TemporalDB.Proofs.Sql.Placeholders

/-!
# Queries and their grammar

    query      := [ EXPLAIN ] statement [ ';' ]
    statement  := INSERT insertion | UPDATE change | DELETE deletion | SELECT selection
    insertion  := INTO name columns VALUES '(' value { ',' value } ')'
    columns    := [ '(' name { ',' name } ')' ]
    change     := name SET assignment { ',' assignment } condition
    deletion   := FROM name condition
    selection  := projection FROM name period condition
    projection := '*' | name { ',' name }
    period     := [ FOR SYSTEM_TIME AS OF value ]
    condition  := [ WHERE comparison { AND comparison } ]

Each rule is a kind of phrase. A placeholder means the parameter whose number is that of the
placeholders before it. Main statement: `query_accepts_grammar`.
-/

namespace TemporalDB

/-- An insertion that names columns has a value for each. -/
def Statement.Balanced : Statement → Prop
  | .insert _ (some names) values => names.length = values.length
  | _ => True

namespace Sql

open Text TemporalDB.Sql.Parser

/-! ## The grammar -/

/-- A value: a placeholder, a numeral or a string. -/
inductive IsValue : Phrase Expr
  | param (n : Nat) : IsValue n [.param] (.param n)
  | number (n : Nat) (text : String) : IsValue n [.number text] (.literal (.number text))
  | string (n : Nat) (text : String) : IsValue n [.string text] (.literal (.string text))

/-- A comparison: `name op value`. -/
inductive IsComparison : Phrase Comparison
  | compare {n : Nat} {ts : List Token} {value : Expr} (column : String) (op : Comparator)
      (h : IsValue n ts value) :
      IsComparison n ([.word column] ++ [.comparator op] ++ ts) ⟨column, op, value⟩

/-- An assignment: `name = value`. -/
inductive IsAssignment : Phrase Assignment
  | assign {n : Nat} {ts : List Token} {value : Expr} (column : String) (h : IsValue n ts value) :
      IsAssignment n ([.word column] ++ [.comparator .eq] ++ ts) ⟨column, value⟩

/-- The columns of an insertion, or nothing for all of them. -/
inductive IsColumns : Phrase (Option (List String))
  | all (n : Nat) : IsColumns n [] none
  | named {n : Nat} {ts : List Token} {names : List String} (h : Enclosed IsName n ts names) :
      IsColumns n ts (some names)

/-- A condition, or nothing for all rows. -/
inductive IsCondition : Phrase (List Comparison)
  | all (n : Nat) : IsCondition n [] []
  | only {n : Nat} {ks ts : List Token} {cs : List Comparison} (keyword : Keywords ["WHERE"] ks)
      (h : Separated (Keywords ["AND"]) IsComparison n ts cs) : IsCondition n (ks ++ ts) cs

/-- The instant of a selection, or nothing for the present. -/
inductive IsPeriod : Phrase (Option Expr)
  | present (n : Nat) : IsPeriod n [] none
  | past {n : Nat} {ks ts : List Token} {value : Expr}
      (keywords : Keywords ["FOR", "SYSTEM_TIME", "AS", "OF"] ks) (h : IsValue n ts value) :
      IsPeriod n (ks ++ ts) (some value)

inductive IsProjection : Phrase Projection
  | all (n : Nat) : IsProjection n [.star] .all
  | columns {n : Nat} {ts : List Token} {names : List String} (h : Listed IsName n ts names) :
      IsProjection n ts (.columns names)

inductive IsInsertion : Phrase Statement
  | insert {n : Nat} {ks cs vs es : List Token} {columns : Option (List String)}
      {values : List Expr} (table : String) (intoKey : Keywords ["INTO"] ks)
      (hcolumns : IsColumns n cs columns) (valuesKey : Keywords ["VALUES"] vs)
      (hvalues : Enclosed IsValue n es values) :
      IsInsertion n (ks ++ [.word table] ++ cs ++ vs ++ es) (.insert table columns values)

inductive IsChange : Phrase Statement
  | update {n : Nat} {ks as ws : List Token} {assignments : List Assignment}
      {condition : List Comparison} (table : String) (setKey : Keywords ["SET"] ks)
      (hassignments : Listed IsAssignment n as assignments)
      (hcondition : IsCondition (n + as.count .param) ws condition) :
      IsChange n ([.word table] ++ ks ++ as ++ ws) (.update table assignments condition)

inductive IsDeletion : Phrase Statement
  | delete {n : Nat} {ks ws : List Token} {condition : List Comparison} (table : String)
      (fromKey : Keywords ["FROM"] ks) (hcondition : IsCondition n ws condition) :
      IsDeletion n (ks ++ [.word table] ++ ws) (.delete table condition)

inductive IsSelection : Phrase Statement
  | select {n : Nat} {ps ks is ws : List Token} {projection : Projection} {asOf : Option Expr}
      {condition : List Comparison} (table : String) (hprojection : IsProjection n ps projection)
      (fromKey : Keywords ["FROM"] ks) (hperiod : IsPeriod n is asOf)
      (hcondition : IsCondition (n + is.count .param) ws condition) :
      IsSelection n (ps ++ ks ++ [.word table] ++ is ++ ws)
        (.select table projection asOf condition)

inductive IsStatement : Phrase Statement
  | insert {n : Nat} {ks ts : List Token} {s : Statement} (keyword : Keywords ["INSERT"] ks)
      (h : IsInsertion n ts s) : IsStatement n (ks ++ ts) s
  | update {n : Nat} {ks ts : List Token} {s : Statement} (keyword : Keywords ["UPDATE"] ks)
      (h : IsChange n ts s) : IsStatement n (ks ++ ts) s
  | delete {n : Nat} {ks ts : List Token} {s : Statement} (keyword : Keywords ["DELETE"] ks)
      (h : IsDeletion n ts s) : IsStatement n (ks ++ ts) s
  | select {n : Nat} {ks ts : List Token} {s : Statement} (keyword : Keywords ["SELECT"] ks)
      (h : IsSelection n ts s) : IsStatement n (ks ++ ts) s

/-- What may stand after a statement: a semicolon or nothing. -/
inductive IsEnd : List Token → Prop
  | plain : IsEnd []
  | semicolon : IsEnd [.semicolon]

/-- A query: a statement that is to be run or to be explained. -/
inductive IsQuery : List Token → Query → Prop
  | run {ts us : List Token} {s : Statement} (h : IsStatement 0 ts s) (ending : IsEnd us) :
      IsQuery (ts ++ us) ⟨s, false⟩
  | explain {ks ts us : List Token} {s : Statement} (keyword : Keywords ["EXPLAIN"] ks)
      (h : IsStatement 0 ts s) (ending : IsEnd us) : IsQuery (ks ++ ts ++ us) ⟨s, true⟩

/-! ## Clauses -/

def columnNames : Parser (Option (List String)) := do
  if ← opens then some <$> parenthesized identifier else pure none

def projection : Parser Projection := do
  if ← sign? .star then pure .all else .columns <$> commaSeparated identifier

def period : Parser (Option Expr) := do
  if ← keywords? ["FOR", "SYSTEM_TIME", "AS", "OF"] then some <$> expr else pure none

def insertion (table : String) (columns : Option (List String)) (values : List Expr) :
    Parser Statement :=
  match columns with
  | some names =>
    if names.length = values.length then pure (.insert table columns values)
    else fail (.insertCount names.length values.length)
  | none => pure (.insert table columns values)

theorem ite_bind {α β : Type} (b : Bool) (p p' : Parser α) (q : α → Parser β) :
    (if b then p else p') >>= q = if b then p >>= q else p' >>= q := by
  cases b <;> rfl

theorem insertStatement_eq : insertStatement = (do
    keyword "INTO"
    let table ← identifier
    let columns ← columnNames
    keyword "VALUES"
    let values ← parenthesized expr
    insertion table columns values) := by
  unfold insertStatement columnNames
  simp only [bind_assoc, ite_bind]
  rfl

theorem selectStatement_eq : selectStatement = (do
    let projection ← projection
    keyword "FROM"
    let table ← identifier
    let asOf ← period
    let condition ← condition
    pure (.select table projection asOf condition)) := by
  unfold selectStatement projection period
  simp only [bind_assoc, ite_bind]

/-! ## Values, names and lists of them -/

variable {c c' : Cursor} {s : Statement}

theorem reads_expr : expr.Reads IsValue := by
  intro c a c'
  constructor
  · intro h
    unfold expr at h
    split at h
    · rename_i line rest hrest
      cases h
      exact ⟨[.param], .cons ⟨line, rest, hrest, rfl⟩ (.nil _), .param _⟩
    · rename_i n line rest hrest
      cases h
      exact ⟨[.number n], .cons ⟨line, rest, hrest, rfl⟩ (.nil _), .number _ n⟩
    · rename_i text line rest hrest
      cases h
      exact ⟨[.string text], .cons ⟨line, rest, hrest, rfl⟩ (.nil _), .string _ text⟩
    · cases h
  · rintro ⟨ts, passes, h⟩
    cases h with
    | _ =>
        obtain ⟨line, rest, hrest, rfl⟩ := Cursor.passes_singleton_iff.mp passes
        unfold expr
        rw [hrest]
        rfl

theorem reads_comparison : comparison.Reads IsComparison := by
  intro c a c'
  simp only [comparison, bind_eq_ok, identifier_eq_ok, comparator_eq_ok, pure_eq_ok]
  constructor
  · rintro ⟨column, c₁, hcolumn, op, c₂, hop, value, _, hvalue, rfl, rfl⟩
    obtain ⟨ts, passes, hvalue⟩ := reads_expr.mp hvalue
    rw [hop.params_of_ne (by simp), hcolumn.params_of_ne (by simp)] at hvalue
    exact ⟨_, (hcolumn.passes.append hop.passes).append passes, .compare column op hvalue⟩
  · rintro ⟨_, passes, ⟨column, op, hvalue⟩⟩
    simp only [Cursor.passes_append_iff, Cursor.passes_singleton_iff] at passes
    obtain ⟨c₂, ⟨c₁, hcolumn, hop⟩, passes⟩ := passes
    rw [← hcolumn.params_of_ne (by simp), ← hop.params_of_ne (by simp)] at hvalue
    exact ⟨column, c₁, hcolumn, op, c₂, hop, _, c', reads_expr.mpr ⟨_, passes, hvalue⟩, rfl, rfl⟩

theorem reads_assignment : assignment.Reads IsAssignment := by
  intro c a c'
  simp only [assignment, bind_eq_ok, identifier_eq_ok, pure_eq_ok]
  constructor
  · rintro ⟨column, c₁, hcolumn, ⟨⟩, c₂, hequals, value, _, hvalue, rfl, rfl⟩
    rw [sign_eq_ok (by simp)] at hequals
    obtain ⟨ts, passes, hvalue⟩ := reads_expr.mp hvalue
    rw [hequals.params_of_ne (by simp), hcolumn.params_of_ne (by simp)] at hvalue
    exact ⟨_, (hcolumn.passes.append hequals.passes).append passes, .assign column hvalue⟩
  · rintro ⟨_, passes, ⟨column, hvalue⟩⟩
    simp only [Cursor.passes_append_iff, Cursor.passes_singleton_iff] at passes
    obtain ⟨c₂, ⟨c₁, hcolumn, hequals⟩, passes⟩ := passes
    rw [← hcolumn.params_of_ne (by simp), ← hequals.params_of_ne (by simp)] at hvalue
    exact ⟨column, c₁, hcolumn, (), c₂, (sign_eq_ok (by simp)).mpr hequals, _, c',
      reads_expr.mpr ⟨_, passes, hvalue⟩, rfl, rfl⟩

theorem inhabited_isValue : IsValue.Inhabited := by
  rintro _ _ _ (_ | _ | _) <;> exact List.cons_ne_nil _ _

theorem inhabited_isComparison : IsComparison.Inhabited := by
  rintro _ _ _ ⟨⟩
  exact List.cons_ne_nil _ _

theorem inhabited_isAssignment : IsAssignment.Inhabited := by
  rintro _ _ _ ⟨⟩
  exact List.cons_ne_nil _ _

/-! ## Names have no placeholders -/

theorem count_of_listed {n : Nat} {ts : List Token} {names : List String}
    (h : Listed IsName n ts names) : ts.count .param = 0 := by
  induction h with
  | last h =>
      obtain ⟨-, w⟩ := h
      rfl
  | more h between others ih =>
      obtain ⟨-, w⟩ := h
      obtain rfl := between
      simpa using ih

theorem IsColumns.count {n : Nat} {ts : List Token} {columns : Option (List String)}
    (h : IsColumns n ts columns) : ts.count .param = 0 := by
  rcases h with _ | ⟨⟨h⟩⟩
  · rfl
  · simpa using count_of_listed h

theorem IsProjection.count {n : Nat} {ts : List Token} {columns : Projection}
    (h : IsProjection n ts columns) : ts.count .param = 0 := by
  rcases h with _ | ⟨h⟩
  · rfl
  · exact count_of_listed h

/-! ## Optional clauses -/

/-- What may come after a statement: a semicolon or nothing. -/
def Ends (next : Option Token) : Prop := ∀ t ∈ next, t = .semicolon

theorem Ends.not_isKeyword {next : Option Token} {k : String} (h : Ends next) :
    ∀ t ∈ next, ¬IsKeyword k t := by
  rintro t ht ⟨w, rfl, -⟩
  cases h _ ht

theorem readsBefore_condition : condition.ReadsBefore Ends IsCondition := by
  intro c cs c' ends
  simp only [condition, bind_eq_ok]
  constructor
  · rintro ⟨_ | _, c₁, hwhere, h⟩
    · obtain ⟨-, rfl⟩ := keywords?_eq_false.mp hwhere
      obtain ⟨rfl, rfl⟩ := pure_eq_ok.mp h
      exact ⟨[], .nil c, .all _⟩
    · obtain ⟨ks, keyword, passes⟩ := keywords?_eq_true.mp hwhere
      obtain ⟨⟨ts, passes', h⟩, -⟩ := (separated_eq_ok_iff reads_comparison
        inhabited_isComparison takesAny_keywords?).mp h
      rw [passes.params_of_count keyword.count] at h
      exact ⟨_, passes.append passes', .only keyword h⟩
  · rintro ⟨_, passes, _ | ⟨keyword, h⟩⟩
    · obtain rfl := Cursor.passes_nil_iff.mp passes
      exact ⟨false, c, keywords?_of_next ends.not_isKeyword, rfl⟩
    · obtain ⟨c₁, passes, passes'⟩ := Cursor.passes_append_iff.mp passes
      rw [← passes.params_of_count keyword.count] at h
      exact ⟨true, c₁, keywords?_eq_true.mpr ⟨_, keyword, passes⟩,
        (separated_eq_ok_iff reads_comparison inhabited_isComparison takesAny_keywords?).mpr
          ⟨⟨_, passes', h⟩, keywords?_of_next ends.not_isKeyword⟩⟩

/-- Before a condition and after it comes the keyword of it or what may come after a statement. -/
theorem next_of_condition {n : Nat} {ts : List Token} {cs : List Comparison}
    (h : IsCondition n ts cs) (passes : c.Passes ts c') (ends : Ends c'.next) :
    ∀ t ∈ c.next, t = .semicolon ∨ IsKeyword "WHERE" t := by
  rcases h with _ | ⟨_ | ⟨keyword, -⟩, -⟩
  · obtain rfl := Cursor.passes_nil_iff.mp passes
    exact fun t ht => .inl (ends t ht)
  · rw [List.cons_append] at passes
    rw [passes.next]
    rintro _ ⟨⟩
    exact .inr keyword

theorem ne_comma_of_condition {n : Nat} {ts : List Token} {cs : List Comparison}
    (h : IsCondition n ts cs) (passes : c.Passes ts c') (ends : Ends c'.next) :
    c.next ≠ some .comma := by
  intro comma
  rcases next_of_condition h passes ends .comma comma with ⟨⟨⟩⟩ | ⟨w, ⟨⟩, -⟩

theorem not_for_of_condition {n : Nat} {ts : List Token} {cs : List Comparison}
    (h : IsCondition n ts cs) (passes : c.Passes ts c') (ends : Ends c'.next) :
    ∀ t ∈ c.next, ¬IsKeyword "FOR" t := by
  intro t ht isFor
  rcases next_of_condition h passes ends t ht with rfl | isWhere
  · obtain ⟨w, ⟨⟩, -⟩ := isFor
  · exact absurd (isFor.sameName isWhere) (by decide)

theorem ne_of_keyword {k : String} {ks : List Token} {t : Token} (h : Keywords [k] ks)
    (passes : c.Passes ks c') (sign : ∀ w, t ≠ .word w) : c.next ≠ some t := by
  obtain _ | ⟨⟨w, rfl, -⟩, ⟨⟩⟩ := h
  rw [passes.next]
  rintro ⟨⟩
  exact sign w rfl

theorem readsBefore_columnNames : columnNames.ReadsBefore (· ≠ some .leftParen) IsColumns := by
  intro c columns c' other
  simp only [columnNames, bind_eq_ok, opens_eq_ok]
  constructor
  · rintro ⟨_ | _, _, ⟨-, rfl⟩, h⟩
    · obtain ⟨rfl, rfl⟩ := pure_eq_ok.mp h
      exact ⟨[], .nil c, .all _⟩
    · obtain ⟨names, hnames, rfl⟩ := map_eq_ok.mp h
      obtain ⟨ts, passes, enclosed⟩ :=
        (reads_parenthesized reads_identifier inhabited_isName).mp hnames
      exact ⟨ts, passes, .named enclosed⟩
  · rintro ⟨ts, passes, _ | h⟩
    · obtain rfl := Cursor.passes_nil_iff.mp passes
      exact ⟨false, c, ⟨decide_eq_false other, rfl⟩, rfl⟩
    · refine ⟨true, c, ⟨?_, rfl⟩, map_eq_ok.mpr ⟨_,
        (reads_parenthesized reads_identifier inhabited_isName).mpr ⟨ts, passes, h⟩, rfl⟩⟩
      obtain ⟨-⟩ := h
      simpa using passes.next

theorem readsBefore_projection : projection.ReadsBefore (· ≠ some .comma) IsProjection := by
  intro c columns c' other
  have names {as} := reads_commaSeparated reads_identifier inhabited_isName (c := c) (a := as) other
  simp only [projection, bind_eq_ok]
  constructor
  · rintro ⟨_ | _, c₁, hstar, h⟩
    · obtain ⟨-, rfl⟩ := sign?_eq_false.mp hstar
      obtain ⟨as, hnames, rfl⟩ := map_eq_ok.mp h
      obtain ⟨ts, passes, listed⟩ := names.mp hnames
      exact ⟨ts, passes, .columns listed⟩
    · rw [sign?_eq_true (by simp)] at hstar
      obtain ⟨rfl, rfl⟩ := pure_eq_ok.mp h
      exact ⟨_, hstar.passes, .all _⟩
  · rintro ⟨ts, passes, _ | h⟩
    · exact ⟨true, c', (sign?_eq_true (by simp)).mpr (Cursor.passes_singleton_iff.mp passes), rfl⟩
    · refine ⟨false, c, sign?_eq_false.mpr ⟨?_, rfl⟩,
        map_eq_ok.mpr ⟨_, names.mpr ⟨ts, passes, h⟩, rfl⟩⟩
      rcases h with ⟨⟨⟩⟩ | ⟨⟨⟩, -, -⟩
      · simp [passes.next]
      · simp only [List.cons_append] at passes
        simp [passes.next]

theorem readsBefore_period :
    period.ReadsBefore (fun next => ∀ t ∈ next, ¬IsKeyword "FOR" t) IsPeriod := by
  intro c asOf c' other
  simp only [period, bind_eq_ok]
  constructor
  · rintro ⟨_ | _, c₁, hfor, h⟩
    · obtain ⟨-, rfl⟩ := keywords?_eq_false.mp hfor
      obtain ⟨rfl, rfl⟩ := pure_eq_ok.mp h
      exact ⟨[], .nil c, .present _⟩
    · obtain ⟨ks, keywords, passes⟩ := keywords?_eq_true.mp hfor
      obtain ⟨value, hvalue, rfl⟩ := map_eq_ok.mp h
      obtain ⟨ts, passes', hvalue⟩ := reads_expr.mp hvalue
      rw [passes.params_of_count keywords.count] at hvalue
      exact ⟨_, passes.append passes', .past keywords hvalue⟩
  · rintro ⟨_, passes, _ | ⟨keywords, h⟩⟩
    · obtain rfl := Cursor.passes_nil_iff.mp passes
      exact ⟨false, c, keywords?_of_next other, rfl⟩
    · obtain ⟨c₁, passes, passes'⟩ := Cursor.passes_append_iff.mp passes
      rw [← passes.params_of_count keywords.count] at h
      exact ⟨true, c₁, keywords?_eq_true.mpr ⟨_, keywords, passes⟩,
        map_eq_ok.mpr ⟨_, reads_expr.mpr ⟨_, passes', h⟩, rfl⟩⟩

/-! ## Statements -/

theorem insertion_eq_ok {table : String} {columns : Option (List String)} {values : List Expr} :
    insertion table columns values c = .ok (s, c') ↔
      (.insert table columns values = s ∧ c = c') ∧ s.Balanced := by
  unfold insertion
  cases columns with
  | none =>
      refine pure_eq_ok.trans (and_iff_left_of_imp ?_).symm
      rintro ⟨rfl, rfl⟩
      trivial
  | some names =>
      dsimp only
      split_ifs with same
      · refine pure_eq_ok.trans (and_iff_left_of_imp ?_).symm
        rintro ⟨rfl, rfl⟩
        exact same
      · constructor
        · rintro ⟨⟩
        · rintro ⟨⟨rfl, rfl⟩, balanced⟩
          exact absurd balanced same

theorem insertStatement_eq_ok : insertStatement c = .ok (s, c') ↔
    (∃ ts, c.Passes ts c' ∧ IsInsertion c.params ts s) ∧ s.Balanced := by
  simp only [insertStatement_eq, bind_eq_ok, keyword_eq_ok, identifier_eq_ok, insertion_eq_ok]
  constructor
  · rintro ⟨⟨⟩, c₁, ⟨ks, hinto, pinto⟩, table, c₂, ptable, columns, c₃, hcolumns, ⟨⟩, c₄,
      ⟨vs, hkey, pkey⟩, values, _, hvalues, ⟨rfl, rfl⟩, balanced⟩
    refine ⟨?_, balanced⟩
    -- the keyword behind the columns tells that they have come to their end
    have other : c₃.next ≠ some .leftParen := ne_of_keyword hkey pkey (by simp)
    obtain ⟨cs, pcolumns, hcolumns⟩ := (readsBefore_columnNames other).mp hcolumns
    obtain ⟨es, pvalues, hvalues⟩ := (reads_parenthesized reads_expr inhabited_isValue).mp hvalues
    rw [pkey.params_of_count hkey.count, pcolumns.params_of_count hcolumns.count] at hvalues
    rw [ptable.params_of_ne (by simp), pinto.params_of_count hinto.count] at hcolumns hvalues
    exact ⟨_, (((pinto.append ptable.passes).append pcolumns).append pkey).append pvalues,
      .insert table hinto hcolumns hkey hvalues⟩
  · rintro ⟨⟨_, passes, h⟩, balanced⟩
    obtain ⟨table, hinto, hcolumns, hkey, hvalues⟩ := h
    simp only [Cursor.passes_append_iff, Cursor.passes_singleton_iff] at passes
    obtain ⟨c₄, ⟨c₃, ⟨c₂, ⟨c₁, pinto, ptable⟩, pcolumns⟩, pkey⟩, pvalues⟩ := passes
    have other : c₃.next ≠ some .leftParen := ne_of_keyword hkey pkey (by simp)
    rw [← pinto.params_of_count hinto.count, ← ptable.params_of_ne (by simp)] at hcolumns hvalues
    rw [← pcolumns.params_of_count hcolumns.count, ← pkey.params_of_count hkey.count] at hvalues
    exact ⟨(), c₁, ⟨_, hinto, pinto⟩, table, c₂, ptable, _, c₃,
      (readsBefore_columnNames other).mpr ⟨_, pcolumns, hcolumns⟩, (), c₄, ⟨_, hkey, pkey⟩, _, c',
      (reads_parenthesized reads_expr inhabited_isValue).mpr ⟨_, pvalues, hvalues⟩,
      ⟨rfl, rfl⟩, balanced⟩

theorem readsBefore_updateStatement : updateStatement.ReadsBefore Ends IsChange := by
  intro c s c' ends
  simp only [updateStatement, bind_eq_ok, keyword_eq_ok, identifier_eq_ok, pure_eq_ok]
  constructor
  · rintro ⟨table, c₁, ptable, ⟨⟩, c₂, ⟨ks, hset, pset⟩, assignments, c₃, hassignments,
      cs, _, hcondition, rfl, rfl⟩
    -- from the back: where the assignments end is known by what comes behind them
    obtain ⟨ws, pcondition, hcondition⟩ := (readsBefore_condition ends).mp hcondition
    have other := ne_comma_of_condition hcondition pcondition ends
    obtain ⟨as, passignments, hassignments⟩ :=
      (reads_commaSeparated reads_assignment inhabited_isAssignment other).mp hassignments
    rw [passignments.params] at hcondition
    rw [pset.params_of_count hset.count, ptable.params_of_ne (by simp)] at hassignments hcondition
    exact ⟨_, ((ptable.passes.append pset).append passignments).append pcondition,
      .update table hset hassignments hcondition⟩
  · rintro ⟨_, passes, ⟨table, hset, hassignments, hcondition⟩⟩
    simp only [Cursor.passes_append_iff, Cursor.passes_singleton_iff] at passes
    obtain ⟨c₃, ⟨c₂, ⟨c₁, ptable, pset⟩, passignments⟩, pcondition⟩ := passes
    have other := ne_comma_of_condition hcondition pcondition ends
    rw [← ptable.params_of_ne (by simp), ← pset.params_of_count hset.count]
      at hassignments hcondition
    rw [← passignments.params] at hcondition
    exact ⟨table, c₁, ptable, (), c₂, ⟨_, hset, pset⟩, _, c₃,
      (reads_commaSeparated reads_assignment inhabited_isAssignment other).mpr
        ⟨_, passignments, hassignments⟩,
      _, c', (readsBefore_condition ends).mpr ⟨_, pcondition, hcondition⟩, rfl, rfl⟩

theorem readsBefore_deleteStatement : deleteStatement.ReadsBefore Ends IsDeletion := by
  intro c s c' ends
  simp only [deleteStatement, bind_eq_ok, keyword_eq_ok, identifier_eq_ok, pure_eq_ok]
  constructor
  · rintro ⟨⟨⟩, c₁, ⟨ks, hfrom, pfrom⟩, table, c₂, ptable, cs, _, hcondition, rfl, rfl⟩
    obtain ⟨ws, pcondition, hcondition⟩ := (readsBefore_condition ends).mp hcondition
    rw [ptable.params_of_ne (by simp), pfrom.params_of_count hfrom.count] at hcondition
    exact ⟨_, (pfrom.append ptable.passes).append pcondition, .delete table hfrom hcondition⟩
  · rintro ⟨_, passes, ⟨table, hfrom, hcondition⟩⟩
    simp only [Cursor.passes_append_iff, Cursor.passes_singleton_iff] at passes
    obtain ⟨c₂, ⟨c₁, pfrom, ptable⟩, pcondition⟩ := passes
    rw [← pfrom.params_of_count hfrom.count, ← ptable.params_of_ne (by simp)] at hcondition
    exact ⟨(), c₁, ⟨_, hfrom, pfrom⟩, table, c₂, ptable, _, c',
      (readsBefore_condition ends).mpr ⟨_, pcondition, hcondition⟩, rfl, rfl⟩

theorem readsBefore_selectStatement : selectStatement.ReadsBefore Ends IsSelection := by
  intro c s c' ends
  simp only [selectStatement_eq, bind_eq_ok, keyword_eq_ok, identifier_eq_ok, pure_eq_ok]
  constructor
  · rintro ⟨projection, c₁, hprojection, ⟨⟩, c₂, ⟨ks, hfrom, pfrom⟩, table, c₃, ptable,
      asOf, c₄, hperiod, cs, _, hcondition, rfl, rfl⟩
    -- from the back again: each part ends where the next one begins
    obtain ⟨ws, pcondition, hcondition⟩ := (readsBefore_condition ends).mp hcondition
    have other := not_for_of_condition hcondition pcondition ends
    obtain ⟨is, pperiod, hperiod⟩ := (readsBefore_period other).mp hperiod
    obtain ⟨ps, pprojection, hprojection⟩ :=
      (readsBefore_projection (ne_of_keyword hfrom pfrom (by simp))).mp hprojection
    rw [pperiod.params] at hcondition
    rw [ptable.params_of_ne (by simp), pfrom.params_of_count hfrom.count,
      pprojection.params_of_count hprojection.count] at hperiod hcondition
    exact ⟨_, (((pprojection.append pfrom).append ptable.passes).append pperiod).append pcondition,
      .select table hprojection hfrom hperiod hcondition⟩
  · rintro ⟨_, passes, ⟨table, hprojection, hfrom, hperiod, hcondition⟩⟩
    simp only [Cursor.passes_append_iff, Cursor.passes_singleton_iff] at passes
    obtain ⟨c₄, ⟨c₃, ⟨c₂, ⟨c₁, pprojection, pfrom⟩, ptable⟩, pperiod⟩, pcondition⟩ := passes
    have other := not_for_of_condition hcondition pcondition ends
    rw [← pprojection.params_of_count hprojection.count, ← pfrom.params_of_count hfrom.count,
      ← ptable.params_of_ne (by simp)] at hperiod hcondition
    rw [← pperiod.params] at hcondition
    exact ⟨_, c₁, (readsBefore_projection (ne_of_keyword hfrom pfrom (by simp))).mpr
        ⟨_, pprojection, hprojection⟩,
      (), c₂, ⟨_, hfrom, pfrom⟩, table, c₃, ptable, _, c₄,
      (readsBefore_period other).mpr ⟨_, pperiod, hperiod⟩, _, c',
      (readsBefore_condition ends).mpr ⟨_, pcondition, hcondition⟩, rfl, rfl⟩

theorem not_isKeyword_of_keyword {k k' : String} {ks : List Token} (h : Keywords [k] ks)
    (passes : c.Passes ks c') (other : sameName k' k = false) :
    ∀ t ∈ c.next, ¬IsKeyword k' t := by
  obtain _ | ⟨isKeyword, ⟨⟩⟩ := h
  rw [passes.next]
  rintro _ ⟨⟩ isKeyword'
  rw [isKeyword'.sameName isKeyword] at other
  cases other

theorem statement_eq_ok (ends : Ends c'.next) : statement c = .ok (s, c') ↔
    (∃ ts, c.Passes ts c' ∧ IsStatement c.params ts s) ∧ s.Balanced := by
  simp only [statement, keyword?_bind_eq_ok]
  constructor
  · rintro (⟨ks, c₁, keyword, passes, h⟩ | ⟨-, ⟨ks, c₁, keyword, passes, h⟩ |
      ⟨-, ⟨ks, c₁, keyword, passes, h⟩ | ⟨-, ⟨ks, c₁, keyword, passes, h⟩ | ⟨-, h⟩⟩⟩⟩)
    · obtain ⟨⟨ts, passes', h⟩, balanced⟩ := insertStatement_eq_ok.mp h
      rw [passes.params_of_count keyword.count] at h
      exact ⟨⟨_, passes.append passes', .insert keyword h⟩, balanced⟩
    · obtain ⟨ts, passes', h⟩ := (readsBefore_updateStatement ends).mp h
      rw [passes.params_of_count keyword.count] at h
      exact ⟨⟨_, passes.append passes', .update keyword h⟩, by obtain ⟨-⟩ := h; trivial⟩
    · obtain ⟨ts, passes', h⟩ := (readsBefore_deleteStatement ends).mp h
      rw [passes.params_of_count keyword.count] at h
      exact ⟨⟨_, passes.append passes', .delete keyword h⟩, by obtain ⟨-⟩ := h; trivial⟩
    · obtain ⟨ts, passes', h⟩ := (readsBefore_selectStatement ends).mp h
      rw [passes.params_of_count keyword.count] at h
      exact ⟨⟨_, passes.append passes', .select keyword h⟩, by obtain ⟨-⟩ := h; trivial⟩
    · cases h
  · rintro ⟨⟨_, passes, h⟩, balanced⟩
    -- the parser tries the keywords in turn, so those before the right one have to decline
    cases h with
    | insert keyword h =>
        obtain ⟨c₁, passes, passes'⟩ := Cursor.passes_append_iff.mp passes
        rw [← passes.params_of_count keyword.count] at h
        exact .inl ⟨_, c₁, keyword, passes, insertStatement_eq_ok.mpr ⟨⟨_, passes', h⟩, balanced⟩⟩
    | update keyword h =>
        obtain ⟨c₁, passes, passes'⟩ := Cursor.passes_append_iff.mp passes
        rw [← passes.params_of_count keyword.count] at h
        exact .inr ⟨not_isKeyword_of_keyword keyword passes (by decide),
          .inl ⟨_, c₁, keyword, passes,
            (readsBefore_updateStatement ends).mpr ⟨_, passes', h⟩⟩⟩
    | delete keyword h =>
        obtain ⟨c₁, passes, passes'⟩ := Cursor.passes_append_iff.mp passes
        rw [← passes.params_of_count keyword.count] at h
        exact .inr ⟨not_isKeyword_of_keyword keyword passes (by decide),
          .inr ⟨not_isKeyword_of_keyword keyword passes (by decide), .inl ⟨_, c₁, keyword, passes,
            (readsBefore_deleteStatement ends).mpr ⟨_, passes', h⟩⟩⟩⟩
    | select keyword h =>
        obtain ⟨c₁, passes, passes'⟩ := Cursor.passes_append_iff.mp passes
        rw [← passes.params_of_count keyword.count] at h
        exact .inr ⟨not_isKeyword_of_keyword keyword passes (by decide),
          .inr ⟨not_isKeyword_of_keyword keyword passes (by decide),
            .inr ⟨not_isKeyword_of_keyword keyword passes (by decide), .inl ⟨_, c₁, keyword, passes,
              (readsBefore_selectStatement ends).mpr ⟨_, passes', h⟩⟩⟩⟩⟩

/-! ## Queries -/

theorem ends_of_isEnd {us : List Token} (h : IsEnd us) (passes : c.Passes us c')
    (ended : c'.rest = []) : Ends c.next := by
  rcases h with _ | _
  · obtain rfl := Cursor.passes_nil_iff.mp passes
    rw [Cursor.next, ended]
    rintro _ ⟨⟩
  · rw [passes.next]
    rintro _ ⟨⟩
    rfl

/-- A statement ends where no token is left, after a semicolon or without one. -/
theorem ending_eq_ok {q q' : Query} :
    (do
      let _ ← sign? .semicolon
      if ← atEnd then pure q else unexpected "end of statement" : Parser Query) c = .ok (q', c') ↔
    q = q' ∧ (∃ us, c.Passes us c' ∧ IsEnd us) ∧ c'.rest = [] := by
  simp only [bind_eq_ok, atEnd_eq_ok]
  constructor
  · rintro ⟨semicolon, c₁, hsemicolon, ended, _, ⟨hended, rfl⟩, h⟩
    cases ended with
    | false => cases h
    | true =>
        obtain ⟨rfl, rfl⟩ := pure_eq_ok.mp h
        refine ⟨rfl, ?_, List.isEmpty_iff.mp hended⟩
        cases semicolon with
        | false =>
            obtain ⟨-, rfl⟩ := sign?_eq_false.mp hsemicolon
            exact ⟨[], .nil c, .plain⟩
        | true =>
            rw [sign?_eq_true (by simp)] at hsemicolon
            exact ⟨_, hsemicolon.passes, .semicolon⟩
  · rintro ⟨rfl, ⟨_, passes, _ | _⟩, ended⟩
    · obtain rfl := Cursor.passes_nil_iff.mp passes
      refine ⟨false, c, sign?_eq_false.mpr ⟨?_, rfl⟩, true, c,
        ⟨List.isEmpty_iff.mpr ended, rfl⟩, rfl⟩
      simp [Cursor.next, ended]
    · have taken := Cursor.passes_singleton_iff.mp passes
      exact ⟨true, c', (sign?_eq_true (by simp)).mpr taken, true, c',
        ⟨List.isEmpty_iff.mpr ended, rfl⟩, rfl⟩

/-- A statement that ends is not to be explained unless it says so. -/
theorem not_explain_of_isStatement {n : Nat} {ts : List Token} (h : IsStatement n ts s)
    (passes : c.Passes ts c') : ∀ t ∈ c.next, ¬IsKeyword "EXPLAIN" t := by
  cases h with
  | _ keyword h =>
      obtain ⟨_, passes, -⟩ := Cursor.passes_append_iff.mp passes
      exact not_isKeyword_of_keyword keyword passes (by decide)

theorem query_eq_ok {q : Query} (first : c.params = 0) : query c = .ok (q, c') ↔
    ((∃ ts, c.Passes ts c' ∧ IsQuery ts q) ∧ q.statement.Balanced) ∧ c'.rest = [] := by
  simp only [query, bind_eq_ok (p := keyword? _), bind_eq_ok (p := statement), ending_eq_ok]
  constructor
  · rintro ⟨explain, c₁, hexplain, s, c₂, hs, rfl, ⟨us, passes', ending⟩, ended⟩
    rw [statement_eq_ok (ends_of_isEnd ending passes' ended)] at hs
    obtain ⟨⟨ts, passes, h⟩, balanced⟩ := hs
    refine ⟨⟨?_, balanced⟩, ended⟩
    cases explain with
    | false =>
        obtain ⟨-, rfl⟩ := keywords?_eq_false.mp hexplain
        rw [first] at h
        exact ⟨_, passes.append passes', .run h ending⟩
    | true =>
        obtain ⟨ks, keyword, passes''⟩ := keywords?_eq_true.mp hexplain
        rw [passes''.params_of_count keyword.count, first] at h
        exact ⟨_, (passes''.append passes).append passes', .explain keyword h ending⟩
  · rintro ⟨⟨⟨_, passes, h⟩, balanced⟩, ended⟩
    cases h with
    | run h ending =>
        obtain ⟨c₂, passes, passes'⟩ := Cursor.passes_append_iff.mp passes
        -- the end is a semicolon or nothing, and no clause goes on with either
        have ends := ends_of_isEnd ending passes' ended
        rw [← first] at h
        exact ⟨false, c, keywords?_of_next (not_explain_of_isStatement h passes), _, c₂,
          (statement_eq_ok ends).mpr ⟨⟨_, passes, h⟩, balanced⟩, rfl, ⟨_, passes', ending⟩, ended⟩
    | explain keyword h ending =>
        obtain ⟨c₂, passes, passes'⟩ := Cursor.passes_append_iff.mp passes
        obtain ⟨c₁, passes'', passes⟩ := Cursor.passes_append_iff.mp passes
        have ends := ends_of_isEnd ending passes' ended
        rw [← first, ← passes''.params_of_count keyword.count] at h
        exact ⟨true, c₁, keywords?_eq_true.mpr ⟨_, keyword, passes''⟩, _, c₂,
          (statement_eq_ok ends).mpr ⟨⟨_, passes, h⟩, balanced⟩, rfl, ⟨_, passes', ending⟩, ended⟩

theorem run_query_iff {tokens : List Located} {q : Query} : query.run tokens = .ok q ↔
    IsQuery (tokens.map (·.token)) q ∧ q.statement.Balanced := by
  obtain ⟨c', all, ended⟩ := Cursor.passes_all (Cursor.start tokens)
  rw [run_eq_ok]
  constructor
  · rintro ⟨c₁, h⟩
    obtain ⟨⟨⟨ts, passes, h⟩, balanced⟩, ended⟩ := (query_eq_ok rfl).mp h
    have same := passes.map_token
    rw [ended, List.map_nil, List.append_nil] at same
    exact ⟨same ▸ h, balanced⟩
  · rintro ⟨h, balanced⟩
    exact ⟨c', (query_eq_ok rfl).mpr ⟨⟨⟨_, all, h⟩, balanced⟩, ended⟩⟩

/-- **The query parser accepts just the grammar**, with a value for every column that an insertion
names, and it gives what the tokens mean. Its parameters are the placeholders, numbered from zero
in the order in which they stand. -/
theorem query_accepts_grammar (tokens : List Located) (q : Query) :
    (query.run tokens = .ok q ↔ IsQuery (tokens.map (·.token)) q ∧ q.statement.Balanced) ∧
    (query.run tokens = .ok q →
      places q.statement.values = List.range (placeholderCount tokens) ∧
      q.paramCount = placeholderCount tokens) :=
  ⟨run_query_iff, fun h => ⟨places_of_run h, paramCount_of_run h⟩⟩

/-- The statement at an update to be explained, of a table and columns with the names of keywords:
`explain update SET set where = ?, B = ? where AND >= '' And b < ?;` -/
theorem query_accepts_grammar_explained :
    let tokens : List Located := [⟨.word "explain", 1⟩, ⟨.word "update", 1⟩, ⟨.word "SET", 1⟩,
      ⟨.word "set", 1⟩, ⟨.word "where", 1⟩, ⟨.comparator .eq, 1⟩, ⟨.param, 1⟩, ⟨.comma, 1⟩,
      ⟨.word "B", 1⟩, ⟨.comparator .eq, 1⟩, ⟨.param, 1⟩, ⟨.word "where", 1⟩, ⟨.word "AND", 1⟩,
      ⟨.comparator .gtEq, 1⟩, ⟨.string "", 1⟩, ⟨.word "And", 1⟩, ⟨.word "b", 1⟩,
      ⟨.comparator .lt, 1⟩, ⟨.param, 1⟩, ⟨.semicolon, 1⟩]
    let q : Query := ⟨.update "SET" [⟨"where", .param 0⟩, ⟨"B", .param 1⟩]
      [⟨"AND", .gtEq, .literal (.string "")⟩, ⟨"b", .lt, .param 2⟩], true⟩
    query.run tokens = .ok q ∧ IsQuery (tokens.map (·.token)) q ∧
      places q.statement.values = List.range 3 ∧ q.paramCount = 3 := by
  intro tokens q
  have ran : query.run tokens = .ok q := by decide +kernel
  obtain ⟨accepts, counts⟩ := query_accepts_grammar tokens q
  exact ⟨ran, (accepts.mp ran).1, counts ran⟩

end Sql

end TemporalDB
