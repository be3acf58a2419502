import TemporalDB.Proofs.Execution.Opened
import TemporalDB.Proofs.Listing.Constants
import TemporalDB.Proofs.Plan.Typing
import TemporalDB.Proofs.Sql.Placeholders

/-!
# Planned queries do not go wrong

What is planned fits the table that it runs on: columns are there, keys have the right length, and
values have the types of the columns that they stand for. So a planned query fails for its
parameters only, which may be too few or be no values of their columns' types, and for the rows that
an insertion finds or leaves incomplete.
-/

namespace TemporalDB

open Text Plan

def Operation.Inserts (op : Operation) : Prop := ∃ values, op = .insert values

def Statement.Inserts (s : Statement) : Prop := ∃ table columns values, s = .insert table columns values

namespace Execution

/-- How a planned query can be refused once it has all its parameters. -/
inductive Refusal (slots : List Slot) (params : List String) (inserts : Prop) : ExecError → Prop
  /-- A parameter is no value of the type of the column that it stands for. -/
  | param {i type s cause} (stands : (.param i, type) ∈ slots) (given : params[i]? = some s)
      (unread : type.readValue s = .error cause) : Refusal slots params inserts (.param i cause)
  | duplicateKey {table key} (insert : inserts) :
      Refusal slots params inserts (.storage (.table (.duplicateKey table key)))
  | nullViolation {table column} (insert : inserts) :
      Refusal slots params inserts (.storage (.table (.nullViolation table column)))

/-- There is a parameter for each place. -/
def Supplied (slots : List Slot) (params : List String) : Prop :=
  ∀ i type, (.param i, type) ∈ slots → i < params.length

variable {r : Relation} {slots : List Slot} {params : List String} {inserts : Prop}
  {type : ScalarType} {o : Operand} {v : Value} {e : ExecError} {t : Table} {row row' : Row}
  {access : Access} {asOf : Option Instant} {now : Instant} {op : Operation} {i : Nat}

/-! ## Values -/

theorem refusal_of_bindValue (supplied : Supplied slots params) (h : Stands slots type o)
    (he : bindValue params o = .error e) : Refusal slots params inserts e := by
  cases o with
  | const t v => cases he
  | param i t =>
      obtain rfl : t = type := h.type_eq
      have stands : (.param i, t) ∈ slots := h.mem_of_place rfl
      obtain ⟨s, given⟩ : ∃ s, params[i]? = some s :=
        ⟨_, List.getElem?_eq_getElem (supplied i t stands)⟩
      unfold bindValue at he
      simp only [given] at he
      cases read : t.readValue s with
      | ok v =>
          rw [read] at he
          cases he
      | error cause =>
          rw [read] at he
          cases he
          exact .param stands given read

/-- What an operand is bound to is a value of the type that it stands for, and not null. -/
theorem conforms_of_bindValue (h : Stands slots type o) (hv : bindValue params o = .ok v) :
    v.conforms type = true ∧ v ≠ .null := by
  cases o with
  | const t w =>
      cases hv
      obtain rfl : t = type := h.type_eq
      obtain ⟨s, read⟩ := h.exists_read
      exact ScalarType.conforms_of_readValue read
  | param i t =>
      obtain rfl : t = type := h.type_eq
      unfold bindValue at hv
      dsimp only at hv
      split at hv
      · cases hv
      · next s given =>
          cases read : t.readValue s with
          | error cause =>
              rw [read] at hv
              cases hv
          | ok w =>
              rw [read] at hv
              cases hv
              exact ScalarType.conforms_of_readValue read

theorem refusal_of_bindInstant (supplied : Supplied slots params) (h : Stands slots .timestamp o)
    (he : bindInstant params o = .error e) : Refusal slots params inserts e := by
  rcases bind_eq_error_iff.mp he with unbound | ⟨v, bound, he⟩
  · exact refusal_of_bindValue supplied h unbound
  · -- a value of the type of instants is an instant
    obtain ⟨conforms, some⟩ := conforms_of_bindValue h bound
    cases v with
    | timestamp t => cases he
    | null => exact absurd rfl some
    | _ => cases conforms

/-! ## Rows that are found -/

theorem lt_arity_of_standsAt (h : StandsAt r slots i o) : i < r.arity := by
  obtain ⟨c, hc, -⟩ := h
  exact (List.getElem?_eq_some_iff.mp hc).1

theorem refusal_of_matchingRows (supplied : Supplied slots params)
    (typed : TypedAccess t.relation slots access)
    (he : matchingRows t access params asOf = .error e) : Refusal slots params inserts e := by
  rw [matchingRows_eq] at he
  rcases bind_eq_error_iff.mp he with untested | ⟨tests, -, he⟩
  · obtain ⟨f, hf, he⟩ := exists_of_mapM_eq_error untested
    have stands := typed.filters f hf
    unfold bindFilter at he
    rw [if_neg (Nat.not_le.mpr (lt_arity_of_standsAt stands))] at he
    obtain ⟨c, -, there⟩ := stands
    rcases bind_eq_error_iff.mp he with unbound | ⟨v, -, he⟩
    · exact refusal_of_bindValue supplied there unbound
    · cases he
  · rcases bind_eq_error_iff.mp he with unfound | ⟨rows, -, he⟩
    · unfold candidates at unfound
      split at unfound
      · cases unfound
      · next seek hseek =>
          have sought := typed.seek seek hseek
          rw [if_pos sought.length_eq.symm] at unfound
          rcases bind_eq_error_iff.mp unfound with unbound | ⟨key, -, he⟩
          · obtain ⟨o, ho, unbound⟩ := exists_of_mapM_eq_error unbound
            obtain ⟨k, -, c, -, stands⟩ := exists_mem_of_forall₂ sought o ho
            exact refusal_of_bindValue supplied stands unbound
          · cases he
    · cases he

theorem refusal_of_matchingKeys (supplied : Supplied slots params)
    (typed : TypedAccess t.relation slots access)
    (he : matchingKeys t access params = .error e) : Refusal slots params inserts e := by
  rw [matchingKeys_eq] at he
  rcases bind_eq_error_iff.mp he with unfound | ⟨rows, -, he⟩
  · exact refusal_of_matchingRows supplied typed unfound
  · cases he

/-! ## Insertions -/

/-- Every value of a row is null or one of its column's type. -/
def Conforms (r : Relation) (row : Row) : Prop :=
  row.length = r.arity ∧
    ∀ (i : Nat) (c : Column) (v : Value), r.columns[i]? = some c → row[i]? = some v →
      v.conforms c.type = true

theorem conforms_replicate : Conforms r (.replicate r.arity .null) := by
  refine ⟨List.length_replicate, ?_⟩
  intro i c v _ hv
  obtain ⟨-, rfl⟩ := List.mem_replicate.mp (List.mem_of_getElem? hv)
  rfl

theorem Conforms.set (h : Conforms r row) (hv : ∀ c, r.columns[i]? = some c →
    v.conforms c.type = true) : Conforms r (row.set i v) := by
  refine ⟨by rw [List.length_set, h.1], ?_⟩
  intro j c w hc hw
  by_cases same : i = j
  · subst same
    rw [List.getElem?_set_self'] at hw
    obtain ⟨_, -, rfl⟩ := Option.map_eq_some_iff.mp hw
    exact hv c hc
  · rw [List.getElem?_set_ne same] at hw
    exact h.2 j c w hc hw

theorem refusal_of_insertedRow {values : List (Nat × Operand)} (supplied : Supplied slots params)
    (typed : ∀ s ∈ values, StandsAt t.relation slots s.1 s.2)
    (length : row.length = t.relation.arity)
    (he : insertedRow t params row values = .error e) : Refusal slots params inserts e := by
  induction values generalizing row with
  | nil => cases he
  | cons s values ih =>
      obtain ⟨i, o⟩ := s
      rw [List.forall_mem_cons] at typed
      unfold insertedRow at he
      rw [if_neg (by rw [length]; exact Nat.not_le.mpr (lt_arity_of_standsAt typed.1))] at he
      obtain ⟨c, -, stands⟩ := typed.1
      rcases bind_eq_error_iff.mp he with unbound | ⟨v, -, he⟩
      · exact refusal_of_bindValue supplied stands unbound
      · exact ih typed.2 (by rw [List.length_set, length]) he

theorem conforms_of_insertedRow {values : List (Nat × Operand)}
    (typed : ∀ s ∈ values, StandsAt t.relation slots s.1 s.2) (fits : Conforms t.relation row)
    (h : insertedRow t params row values = .ok row') : Conforms t.relation row' := by
  induction values generalizing row with
  | nil =>
      cases h
      exact fits
  | cons s values ih =>
      obtain ⟨i, o⟩ := s
      rw [List.forall_mem_cons] at typed
      unfold insertedRow at h
      split_ifs at h
      obtain ⟨v, bound, h⟩ := bind_eq_ok_iff.mp h
      refine ih typed.2 (fits.set ?_) h
      intro c hc
      obtain ⟨c', hc', stands⟩ := typed.1
      obtain rfl := Option.some.inj (hc.symm.trans hc')
      exact (conforms_of_bindValue stands bound).1

/-- A row of values of the columns' types is refused for a null that may not be, or for its key. -/
theorem insert_eq_error {cause : TableError} (fits : Conforms t.relation row)
    (h : t.insert row now = .error cause) :
    (∃ table column, cause = .nullViolation table column) ∨
      ∃ table key, cause = .duplicateKey table key := by
  rw [Table.insert_eq] at h
  rcases bind_eq_error_iff.mp h with unfit | ⟨_, -, h⟩
  · left
    unfold Table.checkRow Bounded.checkRow at unfit
    rw [if_pos fits.1, Bounded.outcome_forM] at unfit
    obtain ⟨⟨v, i⟩, hvi, he⟩ := exists_of_forM_eq_error unfit
    have hv := List.mem_zipIdx_iff_getElem?.mp hvi
    have inside : i < t.relation.columns.length := by
      change i < t.relation.arity
      rw [← fits.1]
      exact (List.getElem?_eq_some_iff.mp hv).1
    have hc := List.getElem?_eq_getElem inside
    dsimp only at he
    rw [Table.outcome_checkValueAt hc] at he
    simp only [Table.checkValue, fits.2 i _ v hc hv] at he
    split_ifs at he
    cases he
    exact ⟨_, _, rfl⟩
  · -- the check is passed, so there is a present row of the key
    right
    dsimp only [Table.add] at h
    split at h
    · split at h
      · split_ifs at h
        cases h
        exact ⟨_, _, rfl⟩
      · cases h
    · split at h
      · cases h
        exact ⟨_, _, rfl⟩
      · cases h

/-! ## Updates -/

/-- Values that stand for columns outside the key may be assigned. -/
theorem checkAssignments_of_typed {assignments : List (Nat × Operand)}
    {values : List (Nat × Value)}
    (typed : ∀ s ∈ assignments, StandsAt t.relation slots s.1 s.2 ∧
      t.relation.isKeyColumn s.1 = false)
    (bound : (assignments.mapM fun (i, o) => (bindValue params o).map fun v => (i, v)) =
      .ok values) : t.checkAssignments values = .ok () := by
  rw [Table.checkAssignments_eq_ok_iff]
  intro a ha
  obtain ⟨⟨i, o⟩, hs, h⟩ := mem_of_mapM_eq_ok bound a ha
  obtain ⟨⟨c, hc, stands⟩, free⟩ := typed _ hs
  cases hv : bindValue params o with
  | error e =>
      simp only [hv] at h
      cases h
  | ok v =>
      simp only [hv] at h
      cases h
      obtain ⟨conforms, some⟩ := conforms_of_bindValue stands hv
      exact ⟨free, c, hc, conforms, fun _ => some⟩

/-! ## Operations -/

theorem refusal_of_insertOperation {values : List (Nat × Operand)}
    (supplied : Supplied slots params) (typed : ∀ s ∈ values, StandsAt t.relation slots s.1 s.2)
    (he : (runOperation (.insert values) t params now).1 = .error e) :
    Refusal slots params (Operation.insert values).Inserts e := by
  rw [runOperation_insert] at he
  cases made : insertedRow t params (.replicate t.relation.arity .null) values with
  | error cause =>
      rw [made] at he
      cases he
      exact refusal_of_insertedRow supplied typed List.length_replicate made
  | ok row =>
      have fits : Conforms t.relation row :=
        conforms_of_insertedRow typed conforms_replicate made
      rw [made] at he
      dsimp only at he
      cases done : t.insert row now with
      | ok t' =>
          rw [done] at he
          cases he
      | error cause =>
          rw [done] at he
          cases he
          rcases insert_eq_error fits done with ⟨_, _, rfl⟩ | ⟨_, _, rfl⟩
          · exact .nullViolation ⟨values, rfl⟩
          · exact .duplicateKey ⟨values, rfl⟩

theorem refusal_of_assignedValues {assignments : List (Nat × Operand)}
    (supplied : Supplied slots params) (typed : ∀ s ∈ assignments, StandsAt r slots s.1 s.2)
    (he : bindAssignments params assignments = .error e) :
    Refusal slots params inserts e := by
  obtain ⟨⟨i, o⟩, hs, he⟩ := exists_of_mapM_eq_error he
  obtain ⟨c, -, stands⟩ := typed _ hs
  cases hv : bindValue params o with
  | ok v =>
      simp only [hv] at he
      cases he
  | error cause =>
      simp only [hv] at he
      cases he
      exact refusal_of_bindValue supplied stands hv

theorem refusal_of_updateOperation {assignments : List (Nat × Operand)}
    (supplied : Supplied slots params)
    (sets : ∀ s ∈ assignments, StandsAt t.relation slots s.1 s.2 ∧
      t.relation.isKeyColumn s.1 = false)
    (rows : TypedAccess t.relation slots access)
    (he : (runOperation (.update assignments access) t params now).1 = .error e) :
    Refusal slots params inserts e := by
  rw [runOperation_update] at he
  split at he
  · next cause unbound =>
      cases he
      rw [bindUpdate_eq] at unbound
      rcases bind_eq_error_iff.mp unbound with unbound | ⟨values, -, unbound⟩
      · exact refusal_of_assignedValues supplied (fun s hs => (sets s hs).1) unbound
      · rcases bind_eq_error_iff.mp unbound with unfound | ⟨keys, -, done⟩
        · exact refusal_of_matchingKeys supplied rows unfound
        · cases done
  · next values keys bound =>
      obtain ⟨hvalues, -⟩ := bindUpdate_eq_ok_iff.mp bound
      -- the assignments pass the check, so no row is refused
      obtain ⟨n, counted, -⟩ :=
        updateAll_of_checked keys now (checkAssignments_of_typed sets hvalues)
      dsimp only at he
      rw [counted] at he
      cases he

theorem refusal_of_deleteOperation (supplied : Supplied slots params)
    (rows : TypedAccess t.relation slots access)
    (he : (runOperation (.delete access) t params now).1 = .error e) :
    Refusal slots params inserts e := by
  rw [runOperation_delete] at he
  cases matching : matchingKeys t access params with
  | error cause =>
      rw [matching] at he
      cases he
      exact refusal_of_matchingKeys supplied rows matching
  | ok keys =>
      rw [matching] at he
      cases he

theorem refusal_of_selectOperation {projection : List Nat} {asOf : Option Operand}
    (supplied : Supplied slots params) (places : ∀ i ∈ projection, i < t.relation.arity)
    (instant : ∀ o ∈ asOf, Stands slots .timestamp o) (rows : TypedAccess t.relation slots access)
    (he : (runOperation (.select projection asOf access) t params now).1 = .error e) :
    Refusal slots params inserts e := by
  rw [runOperation_select, select_eq] at he
  rcases bind_eq_error_iff.mp he with unbound | ⟨moment, -, he⟩
  · cases asOf with
    | none => cases unbound
    | some o =>
        rcases bind_eq_error_iff.mp unbound with unbound | ⟨t, -, done⟩
        · exact refusal_of_bindInstant supplied (instant o rfl) unbound
        · cases done
  rcases bind_eq_error_iff.mp he with unnamed | ⟨names, -, he⟩
  · obtain ⟨i, hi, unnamed⟩ := exists_of_mapM_eq_error unnamed
    rw [List.getElem?_eq_getElem (places i hi)] at unnamed
    cases unnamed
  rcases bind_eq_error_iff.mp he with unfound | ⟨found, -, done⟩
  · exact refusal_of_matchingRows supplied rows unfound
  · cases done

/-- **A typed operation is refused for its parameters only**, an insertion also for its key and for
nulls. -/
theorem refusal_of_runOperation (supplied : Supplied slots params)
    (typed : Typed t.relation slots op) (he : (runOperation op t params now).1 = .error e) :
    Refusal slots params op.Inserts e := by
  cases typed with
  | insert values_typed => exact refusal_of_insertOperation supplied values_typed he
  | update sets rows => exact refusal_of_updateOperation supplied sets rows he
  | delete rows => exact refusal_of_deleteOperation supplied rows he
  | select places instant rows => exact refusal_of_selectOperation supplied places instant rows he

/-! ## Queries -/

/-- The values that stand for columns are values of the statement. -/
theorem mem_values_of_mem_slotsOf {statement : Statement} {slot : Slot}
    (h : slot ∈ slotsOf r statement) : slot.1 ∈ statement.values := by
  have slotOf_fst : ∀ {name : String} {value : Expr}, slotOf r name value = some slot →
      slot.1 = value := by
    intro name value h
    obtain ⟨c, -, rfl⟩ := Option.map_eq_some_iff.mp h
    rfl
  have condition : ∀ {condition : List Comparison}, slot ∈ conditionSlots r condition →
      slot.1 ∈ condition.map (·.value) := by
    intro condition h
    obtain ⟨c, hc, there⟩ := List.mem_filterMap.mp h
    rw [slotOf_fst there]
    exact List.mem_map_of_mem hc
  cases statement with
  | insert table columns values => exact (List.of_mem_zip h).1
  | update table assignments cond =>
      rcases List.mem_append.mp h with hset | hcond
      · obtain ⟨a, ha, there⟩ := List.mem_filterMap.mp hset
        rw [slotOf_fst there]
        exact List.mem_append_left _ (List.mem_map_of_mem ha)
      · exact List.mem_append_right _ (condition hcond)
  | delete table cond => exact condition h
  | select table projection asOf cond =>
      rcases List.mem_append.mp h with hi | hcond
      · obtain ⟨e, he, rfl⟩ := List.mem_map.mp hi
        exact List.mem_append_left _ he
      · exact List.mem_append_right _ (condition hcond)

theorem inserts_of_planned {statement : Statement} (h : operationOf r statement = .ok op)
    (inserts : op.Inserts) : statement.Inserts := by
  obtain ⟨values, rfl⟩ := inserts
  cases statement with
  | insert table columns values => exact ⟨table, columns, values, rfl⟩
  | update table sets condition =>
      obtain ⟨done, -, h⟩ := bind_eq_ok_iff.mp h
      obtain ⟨found, -, h⟩ := bind_eq_ok_iff.mp h
      cases h
  | delete table condition =>
      obtain ⟨found, -, h⟩ := bind_eq_ok_iff.mp h
      cases h
  | select table projection asOf condition =>
      cases projection <;>
        obtain ⟨places, -, h⟩ := bind_eq_ok_iff.mp h <;>
        obtain ⟨instant, -, h⟩ := bind_eq_ok_iff.mp h <;>
        obtain ⟨found, -, h⟩ := bind_eq_ok_iff.mp h <;>
        cases h

theorem Refusal.mono {inserts' : Prop} (h : Refusal slots params inserts e)
    (imp : inserts → inserts') : Refusal slots params inserts' e := by
  cases h with
  | param stands given unread => exact .param stands given unread
  | duplicateKey insert => exact .duplicateKey (imp insert)
  | nullViolation insert => exact .nullViolation (imp insert)

/-- A planned query on the table of its relation lacks a parameter, or is refused as its operation
can be. -/
theorem refusal_of_runQuery {q : Query} {program : QueryProgram} {db : Database} {explain : Bool}
    (planned : operationOf r q.statement = .ok op)
    (compiled : program = ⟨q.paramCount, r.name, Listing.bodyOf q op⟩)
    (there : db.table r.name = .ok t) (relation : t.relation = r)
    (he : (runQuery program db params explain now).1 = .error e) :
    (q.explain = false ∧ explain = false ∧ params.length < q.paramCount ∧
        e = .missingParam params.length params.length) ∨
      q.explain = false ∧ explain = false ∧ q.paramCount ≤ params.length ∧
        Refusal (slotsOf r q.statement) params q.statement.Inserts e := by
  subst compiled
  rw [runQuery_eq] at he
  unfold Listing.bodyOf at he
  cases written : q.explain with
  | true =>
      simp only [written, if_true] at he
      cases he
  | false =>
      simp only [written, Bool.false_eq_true, if_false] at he
      cases explain with
      | true =>
          simp only [if_true] at he
          cases he
      | false =>
          simp only [Bool.false_eq_true, if_false] at he
          split_ifs at he with few
          · cases he
            exact .inl ⟨rfl, rfl, few, rfl⟩
          · -- every parameter of a slot is a placeholder of the text, and these are supplied
            simp only [there] at he
            have enough : q.paramCount ≤ params.length := Nat.not_lt.mp few
            have supplied : Supplied (slotsOf r q.statement) params := fun i type h =>
              Nat.lt_of_lt_of_le (Query.lt_paramCount (mem_values_of_mem_slotsOf h)) enough
            have typed : Typed t.relation (slotsOf r q.statement) op := by
              rw [relation]
              exact typed_operationOf planned
            exact .inr ⟨rfl, rfl, enough,
              (refusal_of_runOperation supplied typed he).mono (inserts_of_planned planned)⟩

/-- **Planned queries do not go wrong.** Let a query be read, planned on a schema that was read,
written and assembled, and a database be opened on the schema and written to in any way. Then the
query lacks a parameter just if it is run, and not explained, with fewer parameters than its text has
placeholders. Any other error is that of a parameter that is no value of the type of the column that
it stands for, or, if the query inserts, of a key that is held or of a null that may not be. -/
theorem planned_query_sound {schemaText text : String} {s : Schema} {q : Query}
    {source : Listing.Source} {u : CompiledUnit} {db : Database}
    (hs : Sql.parseSchema schemaText = .ok s) (hq : Sql.parseQuery text = .ok q)
    (hsource : Listing.ofQuery q s = .ok source) (hu : Assembly.assemble source.text = .ok u)
    (opened : db.OpenedOn s) : ∃ r program, s.relation? q.statement.table = some r ∧
      u.program = .query program ∧ ∀ params explain now,
        ((∃ i n, (runQuery program db params explain now).1 = .error (.missingParam i n)) ↔
          ¬(q.explain = true ∨ explain = true) ∧ params.length < Sql.placeholders text) ∧
        ∀ e, (runQuery program db params explain now).1 = .error e →
          (∃ i n, e = .missingParam i n) ∨
            Refusal (slotsOf r q.statement) params q.statement.Inserts e := by
  obtain ⟨r, op, hr, planned, rfl⟩ :=
    Listing.assembled_eq hq (Sql.admitted_of_parseSchema hs) hsource hu
  obtain ⟨t, there, relation⟩ := opened.exists_table
    (Sql.declared_of_parseSchema hs).names (List.mem_of_find?_eq_some hr)
  refine ⟨r, _, hr, rfl, ?_⟩
  intro params explain now
  rw [← Sql.paramCount_of_parseQuery hq]
  refine ⟨⟨?_, ?_⟩, ?_⟩
  · rintro ⟨i, n, he⟩
    rcases refusal_of_runQuery planned rfl there relation he with
      ⟨written, asked, few, -⟩ | ⟨-, -, -, refusal⟩
    · exact ⟨by simp [written, asked], few⟩
    · cases refusal
  · rintro ⟨run, few⟩
    obtain ⟨written, asked⟩ : q.explain = false ∧ explain = false := by simpa using run
    refine ⟨params.length, params.length, ?_⟩
    rw [runQuery_eq]
    unfold Listing.bodyOf
    simp [written, asked, few]
  · intro e he
    rcases refusal_of_runQuery planned rfl there relation he with
      ⟨-, -, -, rfl⟩ | ⟨-, -, -, refusal⟩
    · exact .inl ⟨_, _, rfl⟩
    · exact .inr refusal

def accountsText : String :=
  "CREATE TABLE account (id INTEGER PRIMARY KEY, balance NUMERIC(6, 2) NOT NULL)"

def accounts : Schema :=
  ⟨[⟨"account", [⟨"id", .integer, true⟩, ⟨"balance", .numeric 6 2, true⟩], [0], false⟩]⟩

def payment : String := "UPDATE account SET balance = ? WHERE id = ? AND balance < 100.00"

def paymentQuery : Query :=
  ⟨.update "account" [⟨"balance", .param 0⟩]
    [⟨"id", .eq, .param 1⟩, ⟨"balance", .lt, .literal (.number "100.00")⟩], false⟩

theorem planned_query_sound_payment : ∃ source u program,
    Listing.ofQuery paymentQuery accounts = .ok source ∧
      Assembly.assemble source.text = .ok u ∧ u.program = .query program ∧
      (∃ i n, (runQuery program (.new accounts ⟨"tbl"⟩) ["12.50"] false .first).1 =
        .error (.missingParam i n)) ∧
      ¬∃ i n, (runQuery program (.new accounts ⟨"tbl"⟩) ["12.505", "7"] false .first).1 =
        .error (.missingParam i n) := by
  have assembled : (Listing.ofQuery paymentQuery accounts).toOption.any
      (fun source => (Assembly.assemble source.text).isOk) = true := by decide +kernel
  cases hsource : Listing.ofQuery paymentQuery accounts with
  | error e =>
      rw [hsource] at assembled
      cases assembled
  | ok source =>
      rw [hsource] at assembled
      have assembled : (Assembly.assemble source.text).isOk = true := assembled
      cases hu : Assembly.assemble source.text with
      | error e =>
          rw [hu] at assembled
          cases assembled
      | ok u =>
          have declared : Sql.parseSchema accountsText = .ok accounts := by decide +kernel
          have read : Sql.parseQuery payment = .ok paymentQuery := by decide +kernel
          have two : Sql.placeholders payment = 2 := by decide +kernel
          obtain ⟨r, program, -, hprogram, runs⟩ :=
            planned_query_sound declared read hsource hu (.new ⟨"tbl"⟩)
          refine ⟨source, u, program, rfl, hu, hprogram, ?_, ?_⟩
          · refine (runs ["12.50"] false .first).1.mpr ⟨by decide, ?_⟩
            rw [two]
            decide
          · rw [(runs ["12.505", "7"] false .first).1, two]
            decide

end Execution

end TemporalDB
