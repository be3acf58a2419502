import TemporalDB.Proofs.ScalarType
import TemporalDB.Proofs.Sql.Ensures
import TemporalDB.Sql.QueryGrammar
import TemporalDB.Sql.SchemaGrammar

/-!
# What texts are read as

An update that was read assigns something, a query that was read counts its parameters, and the
types of a schema that was read are types that declarations can give.
-/

namespace TemporalDB

/-- An update assigns something. -/
def Statement.Assigns (s : Statement) : Prop :=
  ∀ table sets condition, s = .update table sets condition → sets ≠ []

/-- A number of parameters that counts one more value. -/
def countParam (n : Nat) : Expr → Nat
  | .param i => max n (i + 1)
  | .literal _ => n

theorem le_countParam (n : Nat) (e : Expr) : n ≤ countParam n e := by
  cases e with
  | param i => exact Nat.le_max_left n (i + 1)
  | literal l => exact Nat.le_refl n

/-- The places of a query's parameters lie below their number. -/
theorem Query.lt_paramCount {q : Query} {i : Nat} (h : .param i ∈ q.statement.values) :
    i < q.paramCount := by
  -- the count never falls, so what one value needs is still met at the end
  have least : ∀ (es : List Expr) (n : Nat), n ≤ es.foldl countParam n ∧
      (.param i ∈ es → i < es.foldl countParam n) := by
    intro es
    induction es with
    | nil => exact fun n => ⟨Nat.le_refl n, fun h => nomatch h⟩
    | cons e es ih =>
        intro n
        obtain ⟨le, below⟩ := ih (countParam n e)
        rw [List.foldl_cons]
        refine ⟨Nat.le_trans (le_countParam n e) le, ?_⟩
        intro h
        rcases List.mem_cons.mp h with rfl | h
        · exact Nat.lt_of_lt_of_le (Nat.le_max_right n (i + 1)) le
        · exact below h
  exact (least q.statement.values 0).2 h

/-- Whether declarations can give the types of a relation's columns. -/
def Relation.Admitted (r : Relation) : Prop := ∀ c ∈ r.columns, c.type.Admitted

def Schema.Admitted (s : Schema) : Prop := ∀ r ∈ s.relations, r.Admitted

instance {s : Schema} : Decidable s.Admitted :=
  inferInstanceAs (Decidable (∀ r ∈ s.relations, ∀ c ∈ r.columns, c.type.Admitted))

namespace Sql

open TemporalDB.Sql.Parser TemporalDB.Sql.Parser.Ensures

/-! ## Queries -/

theorem ensures_insertStatement : insertStatement.Ensures Statement.Assigns := by
  unfold insertStatement
  refine seq fun _ => seq fun table => seq fun opening => ?_
  extract_lets values
  have inserts : ∀ columns, (values columns).Ensures Statement.Assigns := by
    intro columns
    refine seq fun _ => seq fun items => ?_
    cases columns with
    | none => exact pure (by rintro _ _ _ ⟨⟩)
    | some names => exact ite (fun _ => pure (by rintro _ _ _ ⟨⟩)) fun _ => fail
  exact ite (fun _ => seq inserts) fun _ => seq inserts

theorem ensures_updateStatement : updateStatement.Ensures Statement.Assigns := by
  unfold updateStatement commaSeparated
  refine seq fun table => seq fun _ => separated_ne_nil.bind fun assignments some => ?_
  refine seq fun condition => pure ?_
  rintro _ _ _ ⟨⟩
  exact some

theorem ensures_deleteStatement : deleteStatement.Ensures Statement.Assigns := by
  unfold deleteStatement
  refine seq fun _ => seq fun table => seq fun condition => pure ?_
  rintro _ _ _ ⟨⟩

theorem ensures_selectStatement : selectStatement.Ensures Statement.Assigns := by
  unfold selectStatement
  refine seq fun star => ?_
  extract_lets table
  have selects : ∀ projection, (table projection).Ensures Statement.Assigns := by
    intro projection
    refine seq fun _ => seq fun name => seq fun instant => ?_
    extract_lets condition
    have conditions : ∀ asOf, (condition asOf).Ensures Statement.Assigns := by
      intro asOf
      exact seq fun condition => pure (by rintro _ _ _ ⟨⟩)
    exact ite (fun _ => seq conditions) fun _ => seq conditions
  exact ite (fun _ => seq selects) fun _ => seq selects

theorem ensures_statement : statement.Ensures Statement.Assigns := by
  unfold statement
  refine seq fun insert => ite (fun _ => ensures_insertStatement) fun _ => ?_
  refine seq fun update => ite (fun _ => ensures_updateStatement) fun _ => ?_
  refine seq fun delete => ite (fun _ => ensures_deleteStatement) fun _ => ?_
  exact seq fun select => ite (fun _ => ensures_selectStatement) fun _ => unexpected

/-- **An update that was read assigns something.** -/
theorem assigns_of_parseQuery {text : String} {q : Query} (h : parseQuery text = .ok q) :
    q.statement.Assigns := by
  have ensures : query.Ensures fun q => q.statement.Assigns := by
    unfold query
    refine seq fun explain => ensures_statement.bind fun statement assigns => ?_
    refine seq fun _ => seq fun ended => ite (fun _ => ?_) fun _ => unexpected
    exact pure assigns
  obtain ⟨tokens, -, h⟩ := bind_eq_ok_iff.mp h
  exact ensures.run h

/-! ## Schemas -/

def Draft.Admitted (d : Draft) : Prop := ∀ c ∈ d.columns, c.type.Admitted

theorem ensures_scalarType : scalarType.Ensures ScalarType.Admitted := by
  intro c type rest h
  obtain ⟨⟨name, c'⟩, -, h⟩ := bind_eq_ok_iff.mp h
  obtain ⟨⟨args, c'⟩, -, h⟩ := bind_eq_ok_iff.mp h
  dsimp only at h
  cases ht : ScalarType.ofParts name args with
  | error e => rw [ht] at h; cases h
  | ok type' =>
      rw [ht] at h
      cases h
      exact ⟨name, args, ht⟩

theorem ensures_column : column.Ensures fun c => c.1.type.Admitted := by
  unfold column
  refine seq fun name => ensures_scalarType.bind fun type admitted => ?_
  exact seq fun options => pure admitted

theorem withKey_columns {relation : String} {d d' : Draft} {names : List String}
    (h : d.withKey relation names = .ok d') : d'.columns = d.columns := by
  unfold Draft.withKey at h
  split at h
  · cases h
  · cases h
    rfl

theorem withColumn_columns {relation : String} {d d' : Draft} {c : Column} {key : Bool}
    (h : d.withColumn relation c key = .ok d') : d'.columns = d.columns ++ [c] := by
  unfold Draft.withColumn at h
  split_ifs at h with taken isKey
  · obtain ⟨keyed, hk, h⟩ := bind_eq_ok_iff.mp h
    cases h
    show keyed.columns ++ [c] = _
    rw [withKey_columns hk]
  · cases h
    rfl

theorem ensures_element {relation : String} {d : Draft} (hd : d.Admitted) :
    (element relation d).Ensures Draft.Admitted := by
  unfold element
  refine seq fun primary => ite (fun _ => ?_) fun _ => ?_
  · extract_lets named
    have names : ∀ u, (named u).Ensures Draft.Admitted := fun _ => seq fun names => pure hd
    exact ite (fun _ => seq names) fun _ => names ()
  · refine ensures_column.bind fun ⟨c, key⟩ admitted => ofExcept fun d' h => ?_
    unfold Draft.Admitted
    rw [withColumn_columns h, List.forall_mem_append]
    exact ⟨hd, List.forall_mem_singleton.mpr admitted⟩

theorem ensures_elements {relation : String} : (elements relation).Ensures Draft.Admitted := by
  have upTo : ∀ bound d, d.Admitted → (elementsUpTo relation bound d).Ensures Draft.Admitted := by
    intro bound
    induction bound with
    | zero =>
        exact fun d hd => (ensures_element hd).bind fun d' hd' => seq fun _ => pure hd'
    | succ bound ih =>
        intro d hd
        refine (ensures_element hd).bind fun d' hd' => seq fun more => ite (fun _ => ih d' hd') ?_
        exact fun _ => seq fun _ => pure hd'
  intro c d rest h
  exact upTo _ ⟨[], none⟩ (List.forall_mem_nil _) c d rest h

theorem admitted_relation {name : String} {d : Draft} {temporal : Bool} {r : Relation}
    (hd : d.Admitted) (h : d.relation name temporal = .ok r) : r.Admitted := by
  unfold Draft.relation at h
  split at h
  · cases h
  · obtain ⟨key, -, h⟩ := bind_eq_ok_iff.mp h
    cases h
    intro c hc
    obtain ⟨i, hi, rfl⟩ := List.mem_mapIdx.mp hc
    exact hd d.columns[i] (List.getElem_mem hi)

theorem ensures_createTable : createTable.Ensures Relation.Admitted := by
  unfold createTable
  refine seq fun _ => seq fun _ => seq fun name => seq fun _ => ensures_elements.bind ?_
  exact fun d hd => seq fun temporal => ofExcept fun r h => admitted_relation hd h

/-- A step of a schema gives nothing, the schema itself, or the schema with one more relation, of
which the name is new. -/
theorem schemaStep_cases {s : Schema} {c rest : Cursor} {o : Option Schema}
    (h : schemaStep s c = .ok (o, rest)) : o = none ∨ o = some s ∨
      ∃ r c', createTable c = .ok (r, c') ∧ s.relation? r.name = none ∧
        o = some ⟨s.relations ++ [r]⟩ := by
  unfold schemaStep at h
  split_ifs at h
  · cases h
    exact .inl rfl
  · obtain ⟨⟨semicolon, c₁⟩, -, h⟩ := bind_eq_ok_iff.mp h
    dsimp only at h
    split_ifs at h
    · cases h
      exact .inr (.inl rfl)
    · obtain ⟨⟨r, c₂⟩, hr, h⟩ := bind_eq_ok_iff.mp h
      dsimp only at h
      split_ifs at h with taken ended
      · cases h
        exact .inr (.inr ⟨r, rest, hr, by simpa using taken, rfl⟩)
      · obtain ⟨⟨_, c₃⟩, -, h⟩ := bind_eq_ok_iff.mp h
        cases h
        exact .inr (.inr ⟨r, c₂, hr, by simpa using taken, rfl⟩)

theorem ensures_schemaStep {s : Schema} (hs : s.Admitted) :
    (schemaStep s).Ensures fun o => ∀ s' ∈ o, s'.Admitted := by
  intro c o rest h
  rcases schemaStep_cases h with rfl | rfl | ⟨r, c', hr, -, rfl⟩
  · rintro _ ⟨⟩
  · rintro _ ⟨⟩
    exact hs
  · rintro _ ⟨⟩
    unfold Schema.Admitted
    rw [List.forall_mem_append]
    exact ⟨hs, List.forall_mem_singleton.mpr (ensures_createTable _ _ _ hr)⟩

/-- **Declarations can give the types of a schema that was read.** -/
theorem admitted_of_parseSchema {text : String} {s : Schema} (h : parseSchema text = .ok s) :
    s.Admitted := by
  have ensures : (repeated schemaStep ⟨[]⟩).Ensures Schema.Admitted :=
    Ensures.repeated (fun _ hs => ensures_schemaStep hs) (List.forall_mem_nil _)
  obtain ⟨tokens, -, h⟩ := bind_eq_ok_iff.mp h
  exact ensures.run h

end Sql

end TemporalDB
