import TemporalDB.Proofs.Sql.Derivation
import TemporalDB.Proofs.Sql.Writing

/-!
# Queries that are written are read back

A query is written with keywords in upper case, one blank between tokens where one is needed and
no semicolon. Its tokens then derive the query as those did from which it was read. Main statement:
`parseQuery_display`.
-/

namespace TemporalDB.Sql

open Text

variable {α : Type} {n : Nat} {ts : List Token}

/-! ## The tokens of a query that is written -/

def exprToken : Expr → Token
  | .param _ => .param
  | .literal (.number text) => .number text
  | .literal (.string text) => .string text

def comparisonTokens (c : Comparison) : List Token :=
  [.word c.column] ++ [.comparator c.op] ++ [exprToken c.value]

def assignmentTokens (a : Assignment) : List Token :=
  [.word a.column] ++ [.comparator .eq] ++ [exprToken a.value]

def columnsTokens : Option (List String) → List Token
  | none => []
  | some names => enclosedTokens nameTokens names

def conditionTokens : List Comparison → List Token
  | [] => []
  | c :: cs => [.word "WHERE"] ++ separatedTokens [.word "AND"] comparisonTokens (c :: cs)

def projectionTokens : Projection → List Token
  | .all => [.star]
  | .columns names => commaTokens nameTokens names

def periodTokens : Option Expr → List Token
  | none => []
  | some value => [.word "FOR", .word "SYSTEM_TIME", .word "AS", .word "OF"] ++ [exprToken value]

def statementTokens : Statement → List Token
  | .insert table columns values =>
    [.word "INSERT"] ++ ([.word "INTO"] ++ [.word table] ++ columnsTokens columns ++
      [.word "VALUES"] ++ enclosedTokens (fun e => [exprToken e]) values)
  | .update table assignments condition =>
    [.word "UPDATE"] ++ ([.word table] ++ [.word "SET"] ++
      commaTokens assignmentTokens assignments ++ conditionTokens condition)
  | .delete table condition =>
    [.word "DELETE"] ++ ([.word "FROM"] ++ [.word table] ++ conditionTokens condition)
  | .select table projection asOf condition =>
    [.word "SELECT"] ++ (projectionTokens projection ++ [.word "FROM"] ++ [.word table] ++
      periodTokens asOf ++ conditionTokens condition)

def queryTokens (q : Query) : List Token :=
  (if q.explain then [.word "EXPLAIN"] else []) ++ statementTokens q.statement

/-! ## They derive the query -/

/-- The tokens may stand for others: there are as many placeholders among them, and they can be
written if the others can. -/
structure Rewrites (ts us : List Token) : Prop where
  count : us.count .param = ts.count .param
  genuine : (∀ t ∈ ts, t.Genuine) → ∀ t ∈ us, t.Genuine

namespace Rewrites

variable {ts us ts' us' : List Token}

theorem refl (ts : List Token) : Rewrites ts ts := ⟨rfl, id⟩

theorem append (h : Rewrites ts us) (h' : Rewrites ts' us') :
    Rewrites (ts ++ ts') (us ++ us') where
  count := by rw [List.count_append, List.count_append, h.count, h'.count]
  genuine written := by
    obtain ⟨front, back⟩ := List.forall_mem_append.mp written
    exact List.forall_mem_append.mpr ⟨h.genuine front, h'.genuine back⟩

end Rewrites

theorem rewrites_keywords {ks : List String} (h : Keywords ks ts) (words : ∀ k ∈ ks, k ∈ keywords) :
    Rewrites ts (ks.map .word) where
  count := by rw [(keywords_self ks).count, h.count]
  genuine _ := List.forall_mem_map.mpr fun k hk => isWord_of_mem_keywords k (words k hk)

/-- Whatever tokens a phrase has, it may have those that are written. -/
def Canonical (P : Phrase α) (write : α → List Token) : Prop :=
  ∀ n ts a, P n ts a → P n (write a) a ∧ Rewrites ts (write a)

theorem canonical_isValue : Canonical IsValue fun e => [exprToken e] := by
  rintro n _ _ (_ | _ | _)
  · exact ⟨.param n, .refl _⟩
  · exact ⟨.number n _, .refl _⟩
  · exact ⟨.string n _, .refl _⟩

theorem canonical_isName : Canonical IsName nameTokens := by
  rintro n _ w ⟨⟩
  exact ⟨.word n w, .refl _⟩

theorem canonical_isComparison : Canonical IsComparison comparisonTokens := by
  rintro n _ _ ⟨column, op, hvalue⟩
  obtain ⟨hvalue, last⟩ := canonical_isValue _ _ _ hvalue
  exact ⟨.compare column op hvalue, .append (.refl _) last⟩

theorem canonical_isAssignment : Canonical IsAssignment assignmentTokens := by
  rintro n _ _ ⟨column, hvalue⟩
  obtain ⟨hvalue, last⟩ := canonical_isValue _ _ _ hvalue
  exact ⟨.assign column hvalue, .append (.refl _) last⟩

theorem canonical_separated {S : List Token → Prop} {item : Phrase α} {write : α → List Token}
    {separator : List Token} (h : Canonical item write) (between : S separator)
    (rewrites : ∀ us, S us → Rewrites us separator) :
    Canonical (Separated S item) (separatedTokens separator write) := by
  intro n ts as phrase
  induction phrase with
  | last first =>
      obtain ⟨first, written⟩ := h _ _ _ first
      exact ⟨.last first, written⟩
  | @more n ts us vs a as first separates others ih =>
      obtain ⟨first, front⟩ := h _ _ _ first
      obtain ⟨others, back⟩ := ih
      have step : separatedTokens separator write (a :: as) =
          write a ++ separator ++ separatedTokens separator write as := by
        obtain ⟨b, as, rfl⟩ := List.exists_cons_of_ne_nil others.ne_nil
        rfl
      -- the items behind are numbered on from as many placeholders as before
      rw [← front.count] at others
      rw [step]
      exact ⟨.more first between others, (front.append (rewrites _ separates)).append back⟩

theorem canonical_listed {item : Phrase α} {write : α → List Token} (h : Canonical item write) :
    Canonical (Listed item) (commaTokens write) := by
  refine canonical_separated h rfl ?_
  rintro _ rfl
  exact .refl _

theorem canonical_enclosed {item : Phrase α} {write : α → List Token} (h : Canonical item write) :
    Canonical (Enclosed item) (enclosedTokens write) := by
  rintro n _ as ⟨listed⟩
  obtain ⟨listed, inner⟩ := canonical_listed h _ _ _ listed
  exact ⟨.enclose listed, ((Rewrites.refl _).append inner).append (.refl _)⟩

theorem canonical_isColumns : Canonical IsColumns columnsTokens := by
  rintro n _ _ (_ | h)
  · exact ⟨.all n, .refl _⟩
  · obtain ⟨h, rewrites⟩ := canonical_enclosed canonical_isName _ _ _ h
    exact ⟨.named h, rewrites⟩

theorem canonical_isProjection : Canonical IsProjection projectionTokens := by
  rintro n _ _ (_ | h)
  · exact ⟨.all n, .refl _⟩
  · obtain ⟨h, rewrites⟩ := canonical_listed canonical_isName _ _ _ h
    exact ⟨.columns h, rewrites⟩

theorem canonical_isCondition : Canonical IsCondition conditionTokens := by
  rintro n _ cs (_ | ⟨keyword, h⟩)
  · exact ⟨.all n, .refl _⟩
  · have first := rewrites_keywords keyword (by decide)
    obtain ⟨h, others⟩ := canonical_separated canonical_isComparison (keywords_self ["AND"])
      (fun us between => rewrites_keywords between (by decide)) _ _ _ h
    obtain ⟨c, cs, rfl⟩ := List.exists_cons_of_ne_nil h.ne_nil
    exact ⟨.only (keywords_self ["WHERE"]) h, first.append others⟩

theorem canonical_isPeriod : Canonical IsPeriod periodTokens := by
  rintro n _ _ (_ | ⟨keywords, h⟩)
  · exact ⟨.present n, .refl _⟩
  · have first := rewrites_keywords keywords (by decide)
    obtain ⟨h, last⟩ := canonical_isValue _ _ _ h
    exact ⟨.past (keywords_self _) h, first.append last⟩

theorem canonical_isStatement : Canonical IsStatement statementTokens := by
  intro n _ s phrase
  cases phrase with
  | insert keyword h =>
      obtain ⟨table, intoKey, hcolumns, valuesKey, hvalues⟩ := h
      have first := rewrites_keywords keyword (by decide)
      have into := rewrites_keywords intoKey (by decide)
      obtain ⟨hcolumns, columns⟩ := canonical_isColumns _ _ _ hcolumns
      have names := rewrites_keywords valuesKey (by decide)
      obtain ⟨hvalues, values⟩ := canonical_enclosed canonical_isValue _ _ _ hvalues
      exact ⟨.insert (keywords_self ["INSERT"])
          (.insert table (keywords_self ["INTO"]) hcolumns (keywords_self ["VALUES"]) hvalues),
        first.append ((((into.append (.refl _)).append columns).append names).append values)⟩
  | update keyword h =>
      obtain ⟨table, setKey, hassignments, hcondition⟩ := h
      have first := rewrites_keywords keyword (by decide)
      have set := rewrites_keywords setKey (by decide)
      obtain ⟨hassignments, assignments⟩ :=
        canonical_listed canonical_isAssignment _ _ _ hassignments
      obtain ⟨hcondition, condition⟩ := canonical_isCondition _ _ _ hcondition
      -- the new assignments have as many placeholders as the old, so the condition counts on alike
      rw [← assignments.count] at hcondition
      exact ⟨.update (keywords_self ["UPDATE"])
          (.update table (keywords_self ["SET"]) hassignments hcondition),
        first.append ((((Rewrites.refl _).append set).append assignments).append condition)⟩
  | delete keyword h =>
      obtain ⟨table, fromKey, hcondition⟩ := h
      have first := rewrites_keywords keyword (by decide)
      have source := rewrites_keywords fromKey (by decide)
      obtain ⟨hcondition, condition⟩ := canonical_isCondition _ _ _ hcondition
      exact ⟨.delete (keywords_self ["DELETE"]) (.delete table (keywords_self ["FROM"]) hcondition),
        first.append ((source.append (.refl _)).append condition)⟩
  | select keyword h =>
      obtain ⟨table, hprojection, fromKey, hperiod, hcondition⟩ := h
      have first := rewrites_keywords keyword (by decide)
      obtain ⟨hprojection, projection⟩ := canonical_isProjection _ _ _ hprojection
      have source := rewrites_keywords fromKey (by decide)
      obtain ⟨hperiod, period⟩ := canonical_isPeriod _ _ _ hperiod
      obtain ⟨hcondition, condition⟩ := canonical_isCondition _ _ _ hcondition
      rw [← period.count] at hcondition
      exact ⟨.select (keywords_self ["SELECT"])
          (.select table hprojection (keywords_self ["FROM"]) hperiod hcondition),
        first.append
          ((((projection.append source).append (.refl _)).append period).append condition)⟩

/-- The tokens that are written derive the query, and they can be written if those can from which
it was derived. -/
theorem isQuery_queryTokens {q : Query} (h : IsQuery ts q) :
    IsQuery (queryTokens q) q ∧ ((∀ t ∈ ts, t.Genuine) → ∀ t ∈ queryTokens q, t.Genuine) := by
  cases h with
  | run h ending =>
      obtain ⟨h, rewrites⟩ := canonical_isStatement _ _ _ h
      refine ⟨?_, fun written => rewrites.genuine (List.forall_mem_append.mp written).1⟩
      rw [← List.append_nil (queryTokens _)]
      exact .run h .plain
  | explain keyword h ending =>
      have first := rewrites_keywords keyword (by decide)
      obtain ⟨h, rewrites⟩ := canonical_isStatement _ _ _ h
      refine ⟨?_, fun written =>
        (first.append rewrites).genuine (List.forall_mem_append.mp written).1⟩
      rw [← List.append_nil (queryTokens _)]
      exact .explain (keywords_self ["EXPLAIN"]) h .plain

/-! ## They are written -/

section

variable {e : Expr}

theorem writes_displayExpr (h : (exprToken e).Genuine) :
    Writes (Query.displayExpr e) [exprToken e] := by
  have text : Query.displayExpr e = (exprToken e).text := by
    rcases e with _ | _ | _ <;> rfl
  rw [text]
  exact writes_token h

theorem closes_equals : Closes " = " [.comparator .eq] := by
  have sign : Writes "=" [.comparator .eq] := writes_token (t := .comparator .eq) trivial
  exact (closes_blank.append sign.blank).of_eq (by decide)

theorem writes_assignment {a : Assignment} (h : ∀ t ∈ assignmentTokens a, t.Genuine) :
    Writes (a.column ++ " = " ++ Query.displayExpr a.value) (assignmentTokens a) := by
  have hname : IsWord a.column := h (.word a.column) (by simp [assignmentTokens])
  have hvalue : (exprToken a.value).Genuine := h _ (by simp [assignmentTokens])
  have assigned := (writes_word hname).append_closes closes_equals (by decide)
  exact assigned.append_writes (writes_displayExpr hvalue)

theorem writes_comparison {keyword : String} {ks : List Token} {c : Comparison}
    (hkeyword : Closes keyword ks) (h : ∀ t ∈ comparisonTokens c, t.Genuine) :
    Writes (keyword ++ c.column ++ " " ++ c.op.symbol ++ " " ++ Query.displayExpr c.value)
      (ks ++ comparisonTokens c) := by
  have hname : IsWord c.column := h (.word c.column) (by simp [comparisonTokens])
  have hvalue : (exprToken c.value).Genuine := h _ (by simp [comparisonTokens])
  have sign : Writes c.op.symbol [.comparator c.op] := writes_token (t := .comparator c.op) trivial
  have compared := (hkeyword.append_writes (writes_word hname)).blank.append_writes sign
  have written := compared.blank.append_writes (writes_displayExpr hvalue)
  rwa [List.append_assoc, List.append_assoc, ← List.append_assoc [Token.word c.column]] at written

theorem opens_displayCondition {keyword : String} (h : Opens keyword) (c : Comparison)
    (cs : List Comparison) : Opens (Query.displayCondition keyword (c :: cs)) :=
  (((((h.append _).append _).append _).append _).append _).append _

/-- Comparisons are written with the keyword of the condition in front of the first and with `AND`
in front of every other. -/
theorem writes_comparisons {keyword : String} {ks : List Token} {c : Comparison}
    {cs : List Comparison} (hkeyword : Closes keyword ks)
    (h : ∀ a ∈ c :: cs, ∀ t ∈ comparisonTokens a, t.Genuine) :
    Writes (Query.displayCondition keyword (c :: cs))
      (ks ++ separatedTokens [.word "AND"] comparisonTokens (c :: cs)) := by
  obtain ⟨hc, hcs⟩ := List.forall_mem_cons.mp h
  have first := writes_comparison hkeyword hc
  -- the first comparison has its own keyword, so that is left open in the induction
  induction cs generalizing keyword ks c with
  | nil =>
      have written := first.append closes_nothing.writes apart_nil
      rwa [List.append_nil] at written
  | cons d cs ih =>
      have closesAnd : Closes " AND " [.word "AND"] :=
        (closes_blank.append (closes_keyword "AND" (by decide))).of_eq (by decide)
      obtain ⟨hd, hcs'⟩ := List.forall_mem_cons.mp hcs
      have others := ih closesAnd hcs hd hcs' (writes_comparison closesAnd hd)
      have opens := opens_displayCondition (show Opens " AND " by decide) d cs
      have written := first.append others opens.apart
      rwa [List.append_assoc, ← List.append_assoc (comparisonTokens c)] at written

theorem writes_condition {cs : List Comparison} (h : ∀ t ∈ conditionTokens cs, t.Genuine) :
    Writes (Query.displayCondition " WHERE " cs) (conditionTokens cs) := by
  cases cs with
  | nil => exact closes_nothing.writes
  | cons c cs =>
      obtain ⟨-, others⟩ := List.forall_mem_append.mp h
      have closesWhere : Closes " WHERE " [.word "WHERE"] :=
        (closes_blank.append (closes_keyword "WHERE" (by decide))).of_eq (by decide)
      exact writes_comparisons closesWhere (forall_mem_separatedTokens others)

theorem apart_condition (cs : List Comparison) :
    Apart (Query.displayCondition " WHERE " cs).toList := by
  cases cs with
  | nil => exact apart_nil
  | cons c cs =>
      exact (opens_displayCondition (show Opens " WHERE " by decide) c cs).apart

end

def columnsText : Option (List String) → String
  | some names => " (" ++ Query.commaSeparated names ++ ")"
  | none => ""

def projectionText : Projection → String
  | .all => "*"
  | .columns names => Query.commaSeparated names

def periodText : Option Expr → String
  | some e => " FOR SYSTEM_TIME AS OF " ++ Query.displayExpr e
  | none => ""

theorem displayStatement_insert (table : String) (columns : Option (List String))
    (values : List Expr) : Query.displayStatement (.insert table columns values) =
      "INSERT INTO " ++ table ++ columnsText columns ++ " VALUES (" ++
        Query.commaSeparated (values.map Query.displayExpr) ++ ")" := by
  cases columns <;> rfl

theorem displayStatement_select (table : String) (projection : Projection) (asOf : Option Expr)
    (condition : List Comparison) :
    Query.displayStatement (.select table projection asOf condition) =
      "SELECT " ++ projectionText projection ++ " FROM " ++ table ++ periodText asOf ++
        Query.displayCondition " WHERE " condition := by
  cases projection <;> cases asOf <;> rfl

theorem writes_columns {columns : Option (List String)}
    (h : ∀ t ∈ columnsTokens columns, t.Genuine) :
    Writes (columnsText columns) (columnsTokens columns) := by
  cases columns with
  | none => exact closes_nothing.writes
  | some names =>
      obtain ⟨front, -⟩ := List.forall_mem_append.mp h
      obtain ⟨-, inner⟩ := List.forall_mem_append.mp front
      have parenthesis : Closes " (" [.leftParen] :=
        (closes_blank.append closes_leftParen).of_eq (by decide)
      exact (parenthesis.append_writes (writes_names inner)).rightParen.writes

theorem apart_columns (columns : Option (List String)) : Apart (columnsText columns).toList := by
  cases columns with
  | none => exact apart_nil
  | some names =>
      have opens : Opens " (" := by decide
      exact ((opens.append (Query.commaSeparated names)).append ")").apart

theorem writes_projection {p : Projection} (h : ∀ t ∈ projectionTokens p, t.Genuine) :
    Writes (projectionText p) (projectionTokens p) := by
  cases p with
  | all => exact writes_token (t := .star) trivial
  | columns names => exact writes_names h

theorem writes_period {asOf : Option Expr} (h : ∀ t ∈ periodTokens asOf, t.Genuine) :
    Writes (periodText asOf) (periodTokens asOf) := by
  cases asOf with
  | none => exact closes_nothing.writes
  | some e =>
      obtain ⟨-, value⟩ := List.forall_mem_append.mp h
      have keywords : Closes " FOR SYSTEM_TIME AS OF "
          [.word "FOR", .word "SYSTEM_TIME", .word "AS", .word "OF"] :=
        (closes_blank.append <| (closes_keyword "FOR" (by decide)).append <|
          (closes_keyword "SYSTEM_TIME" (by decide)).append <|
          (closes_keyword "AS" (by decide)).append
            (closes_keyword "OF" (by decide))).of_eq (by decide)
      exact keywords.append_writes (writes_displayExpr (value _ List.mem_cons_self))

theorem apart_period (asOf : Option Expr) : Apart (periodText asOf).toList := by
  cases asOf with
  | none => exact apart_nil
  | some e =>
      have opens : Opens " FOR SYSTEM_TIME AS OF " := by decide
      exact (opens.append (Query.displayExpr e)).apart

theorem writes_insert {table : String} {columns : Option (List String)} {values : List Expr}
    (h : ∀ t ∈ statementTokens (.insert table columns values), t.Genuine) :
    Writes (Query.displayStatement (.insert table columns values))
      (statementTokens (.insert table columns values)) := by
  simp only [statementTokens, enclosedTokens, List.forall_mem_append] at h
  obtain ⟨-, ⟨⟨⟨-, htable⟩, hcolumns⟩, -⟩, ⟨-, hvalues⟩, -⟩ := h
  have named : IsWord table := htable _ List.mem_cons_self
  have begins : Closes "INSERT INTO " [.word "INSERT", .word "INTO"] :=
    ((closes_keyword "INSERT" (by decide)).append
      (closes_keyword "INTO" (by decide))).of_eq (by decide)
  have valuesKey : Closes " VALUES (" [.word "VALUES", .leftParen] :=
    ((closes_blank.append (closes_keyword "VALUES" (by decide))).append
      closes_leftParen).of_eq (by decide)
  have items : Writes (Query.commaSeparated (values.map Query.displayExpr))
      (commaTokens (fun e => [exprToken e]) values) := by
    have each : ∀ e ∈ values, Writes (Query.displayExpr e) [exprToken e] := fun e he =>
      writes_displayExpr (forall_mem_separatedTokens hvalues e he _ List.mem_cons_self)
    exact writes_commaSeparated each
  have front := (begins.append_writes (writes_word named)).append (writes_columns hcolumns)
    (apart_columns columns)
  have written := ((front.append_closes valuesKey (by decide)).append_writes items).rightParen
  rw [displayStatement_insert]
  simp only [statementTokens, enclosedTokens, List.append_assoc, List.cons_append,
    List.nil_append] at written ⊢
  exact written.writes

theorem writes_update {table : String} {assignments : List Assignment}
    {condition : List Comparison}
    (h : ∀ t ∈ statementTokens (.update table assignments condition), t.Genuine) :
    Writes (Query.displayStatement (.update table assignments condition))
      (statementTokens (.update table assignments condition)) := by
  simp only [statementTokens, List.forall_mem_append] at h
  obtain ⟨-, ⟨⟨htable, -⟩, hassignments⟩, hcondition⟩ := h
  have named : IsWord table := htable _ List.mem_cons_self
  have setKey : Closes " SET " [.word "SET"] :=
    (closes_blank.append (closes_keyword "SET" (by decide))).of_eq (by decide)
  have items := writes_commaSeparated fun a ha =>
    writes_assignment (forall_mem_separatedTokens hassignments a ha)
  have updateKey : Closes "UPDATE " [.word "UPDATE"] :=
    (closes_keyword "UPDATE" (by decide)).of_eq (by decide)
  have front := updateKey.append_writes (writes_word named)
  have written := ((front.append_closes setKey (by decide)).append_writes items).append
    (writes_condition hcondition) (apart_condition condition)
  exact written

theorem writes_delete {table : String} {condition : List Comparison}
    (h : ∀ t ∈ statementTokens (.delete table condition), t.Genuine) :
    Writes (Query.displayStatement (.delete table condition))
      (statementTokens (.delete table condition)) := by
  simp only [statementTokens, List.forall_mem_append] at h
  obtain ⟨-, ⟨-, htable⟩, hcondition⟩ := h
  have named : IsWord table := htable _ List.mem_cons_self
  have begins : Closes "DELETE FROM " [.word "DELETE", .word "FROM"] :=
    ((closes_keyword "DELETE" (by decide)).append
      (closes_keyword "FROM" (by decide))).of_eq (by decide)
  have written := (begins.append_writes (writes_word named)).append (writes_condition hcondition)
    (apart_condition condition)
  exact written

theorem writes_select {table : String} {projection : Projection} {asOf : Option Expr}
    {condition : List Comparison}
    (h : ∀ t ∈ statementTokens (.select table projection asOf condition), t.Genuine) :
    Writes (Query.displayStatement (.select table projection asOf condition))
      (statementTokens (.select table projection asOf condition)) := by
  simp only [statementTokens, List.forall_mem_append] at h
  obtain ⟨-, ⟨⟨⟨hprojection, -⟩, htable⟩, hperiod⟩, hcondition⟩ := h
  have named : IsWord table := htable _ List.mem_cons_self
  have fromKey : Closes " FROM " [.word "FROM"] :=
    (closes_blank.append (closes_keyword "FROM" (by decide))).of_eq (by decide)
  have selectKey : Closes "SELECT " [.word "SELECT"] :=
    (closes_keyword "SELECT" (by decide)).of_eq (by decide)
  have columns := selectKey.append_writes (writes_projection hprojection)
  have front := (columns.append_closes fromKey (by decide)).append_writes (writes_word named)
  have written := (front.append (writes_period hperiod) (apart_period asOf)).append
    (writes_condition hcondition) (apart_condition condition)
  rw [displayStatement_select]
  exact written

theorem writes_display {q : Query} (h : ∀ t ∈ queryTokens q, t.Genuine) :
    Writes q.display (queryTokens q) := by
  obtain ⟨s, explain⟩ := q
  obtain ⟨-, h⟩ := List.forall_mem_append.mp h
  have statement : Writes (Query.displayStatement s) (statementTokens s) := by
    cases s with
    | insert => exact writes_insert h
    | update => exact writes_update h
    | delete => exact writes_delete h
    | select => exact writes_select h
  cases explain with
  | false => exact closes_nothing.append_writes statement
  | true =>
      have explainKey : Closes "EXPLAIN " [.word "EXPLAIN"] :=
        (closes_keyword "EXPLAIN" (by decide)).of_eq (by decide)
      exact explainKey.append_writes statement

/-- **A query that was read is read back from what it is written as.** -/
theorem parseQuery_display {text : String} {q : Query} (h : parseQuery text = .ok q) :
    parseQuery q.display = .ok q := by
  obtain ⟨ls, hls, h⟩ := bind_eq_ok_iff.mp h
  obtain ⟨derived, balanced⟩ := run_query_iff.mp h
  have genuine := genuine_of_tokensFrom hls
  obtain ⟨derived, written⟩ := isQuery_queryTokens derived
  obtain ⟨ls', hls', same⟩ :=
    (writes_display (written (List.forall_mem_map.mpr genuine))).exists_tokens
  refine bind_eq_ok_iff.mpr ⟨ls', hls', run_query_iff.mpr ⟨?_, balanced⟩⟩
  rw [same]
  exact derived

/-- The statement at a text with comments, names of keywords, a name that is not of the ASCII
letters, and strings with quotes, with two hyphens and with a semicolon in them. -/
theorem parseQuery_display_comments :
    let text := "Explain select from, größe -- two columns\n FROM\tWhere for System_Time AS OF '-- ;'" ++
      "where AND>=-1.5 and b!='it''s\n' AND c=?;"
    let q : Query := ⟨.select "Where" (.columns ["from", "größe"])
      (some (.literal (.string "-- ;")))
      [⟨"AND", .gtEq, .literal (.number "-1.5")⟩, ⟨"b", .notEq, .literal (.string "it's\n")⟩,
        ⟨"c", .eq, .param 0⟩], true⟩
    parseQuery text = .ok q ∧
    q.display = "EXPLAIN SELECT from, größe FROM Where FOR SYSTEM_TIME AS OF '-- ;'" ++
      " WHERE AND >= -1.5 AND b <> 'it''s\n' AND c = ?" ∧
    parseQuery q.display = .ok q := by
  intro text q
  have read : parseQuery text = .ok q := by decide +kernel
  exact ⟨read, by decide +kernel, parseQuery_display read⟩

end TemporalDB.Sql
