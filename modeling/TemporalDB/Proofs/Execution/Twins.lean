import TemporalDB.Proofs.Execution.Seek

/-!
# Twins with and without history

Databases of schemas that differ only in which relations keep history cannot be told apart by
queries of the present. A query that does not ask for the past answers on a table as it does on the
present rows by themselves, and leaves the same present rows. Main statement: `twins_agree`.
-/

namespace TemporalDB

open Text Table

/-- Whether an operation asks for rows as of an instant. -/
def Operation.asksPast : Operation → Bool
  | .select _ asOf _ => asOf.isSome
  | _ => false

def QueryProgram.asksPast (q : QueryProgram) : Bool :=
  match q.body with
  | .execute op => op.asksPast
  | .explain _ => false

namespace Execution

variable {t : Table} {params : List String} {now now' : Instant}

theorem insertedRow_plain (row : Row) (values : List (Nat × Operand)) :
    insertedRow t.plain params row values = insertedRow t params row values := by
  induction values generalizing row with
  | nil => rfl
  | cons a rest ih =>
      unfold insertedRow
      simp only [ih]
      rfl

theorem matchingRows_plain (a : Access) (asOf : Option Instant) :
    matchingRows t.plain a params asOf = matchingRows t a params none := by
  have tests : bindFilter t.plain params = bindFilter t params := rfl
  have rows : candidates t.plain params asOf a.seek = candidates t params none a.seek := by
    unfold candidates
    simp only [scan_plain, get?_plain]
    rfl
  rw [matchingRows_eq, matchingRows_eq, tests, rows]

theorem matchingKeys_plain (a : Access) :
    matchingKeys t.plain a params = matchingKeys t a params := by
  rw [matchingKeys_eq, matchingKeys_eq, matchingRows_plain]
  rfl

theorem updateAll_plain (now now' : Instant) (assignments : List (Nat × Value)) (keys : List Key) :
    updateAll assignments now' t.plain keys =
      Prod.map id plain (updateAll assignments now t keys) := by
  induction keys generalizing t with
  | nil => rfl
  | cons k rest ih =>
      rw [updateAll_cons, updateAll_cons, plain_update t k assignments now now']
      cases t.update k assignments now with
      | error e => rfl
      | ok result =>
          simp only [Except.map, Prod.map, id_eq]
          rw [ih]
          rfl

theorem deleteAll_plain (now now' : Instant) (keys : List Key) :
    deleteAll now' t.plain keys = Prod.map id plain (deleteAll now t keys) := by
  induction keys generalizing t with
  | nil => rfl
  | cons k rest ih =>
      unfold deleteAll
      rw [plain_delete t k now now']
      simp only [Prod.map, id_eq]
      rw [ih]
      rfl

/-- **An operation of the present sees and changes the present rows only**, whatever else the table
holds and whenever it runs. -/
theorem runOperation_plain {op : Operation} (present : op.asksPast = false) (t : Table)
    (params : List String) (now now' : Instant) :
    runOperation op t.plain params now' = Prod.map id plain (runOperation op t params now) := by
  cases op with
  | insert values =>
      have arity : t.plain.relation.arity = t.relation.arity := rfl
      simp only [runOperation_insert, insertedRow_plain, arity]
      cases insertedRow t params (.replicate t.relation.arity .null) values with
      | error e => rfl
      | ok row =>
          dsimp only
          rw [plain_insert t row now now']
          cases t.insert row now <;> rfl
  | update assignments access =>
      simp only [runOperation_update, bindUpdate_eq, matchingKeys_plain]
      split
      · rfl
      · rw [updateAll_plain now]
        rfl
  | delete access =>
      simp only [runOperation_delete, matchingKeys_plain]
      split
      · rfl
      · rw [deleteAll_plain now]
        rfl
  | select projection asOf access =>
      obtain rfl : asOf = none :=
        Option.isNone_iff_eq_none.mp (Option.isSome_eq_false_iff.mp present)
      simp only [runOperation_select, select_eq, matchingRows_plain]
      rfl

end Execution

/-! ## Databases -/

/-- The relations of two schemas are the same but for which of them keep history. -/
def Schema.Twins (s s' : Schema) : Prop :=
  List.Forall₂ (fun r r' : Relation =>
    r.name = r'.name ∧ r.columns = r'.columns ∧ r.primaryKey = r'.primaryKey)
    s.relations s'.relations

/-- Tables by their names that differ at most in the past. -/
def TablesAgree (tables tables' : OrderedMap String Table) : Prop :=
  ∀ name, Option.Rel (fun t t' => t.plain = t'.plain) (tables.find? name) (tables'.find? name)

variable {tables tables' : OrderedMap String Table} {t t' : Table} {s s' : Schema}
  {db db' : Database}

theorem TablesAgree.insert (h : TablesAgree tables tables') (name : String)
    (same : t.plain = t'.plain) : TablesAgree (tables.insert name t) (tables'.insert name t') := by
  intro x
  by_cases hx : x = name
  · subst hx
    rw [OrderedMap.find?_insert_self, OrderedMap.find?_insert_self]
    exact .some same
  · rw [OrderedMap.find?_insert_of_ne hx, OrderedMap.find?_insert_of_ne hx]
    exact h x

theorem plain_new (r : Relation) : (Table.new r).plain = ⟨r.plain, .conventional .empty⟩ := by
  unfold Table.plain
  rw [present_new]
  rfl

theorem TablesAgree.foldl {relations relations' : List Relation}
    (twins : Schema.Twins ⟨relations⟩ ⟨relations'⟩) (h : TablesAgree tables tables') :
    TablesAgree
      (relations.foldl (fun tables r => tables.insert (foldCase r.name) (Table.new r)) tables)
      (relations'.foldl (fun tables r => tables.insert (foldCase r.name) (Table.new r))
        tables') := by
  change List.Forall₂ _ relations relations' at twins
  induction twins generalizing tables tables' with
  | nil => exact h
  | cons head _ ih =>
      obtain ⟨name, columns, primaryKey⟩ := head
      rw [List.foldl_cons, List.foldl_cons, name]
      refine ih (h.insert _ ?_)
      rw [plain_new, plain_new, Relation.plain_eq_plain_iff.mpr ⟨name, columns, primaryKey⟩]

theorem Schema.Twins.tablesAgree_new (h : s.Twins s') (root root' : Path) :
    TablesAgree (Database.new s root).tables (Database.new s' root').tables := by
  unfold Database.new OrderedMap.ofList
  simp only [List.foldl_map]
  exact TablesAgree.foldl h fun _ => .none

namespace Execution

/-- **A query of the present keeps twins**: it answers alike, and what it leaves differs at most in
the past. -/
theorem runQuery_agree {q : QueryProgram} (present : q.asksPast = false)
    (h : TablesAgree db.tables db'.tables) (params : List String) (explain : Bool)
    (now now' : Instant) :
    (runQuery q db params explain now).1 = (runQuery q db' params explain now').1 ∧
      TablesAgree (runQuery q db params explain now).2.tables
        (runQuery q db' params explain now').2.tables := by
  have asked := h (foldCase q.table)
  unfold QueryProgram.asksPast at present
  rw [runQuery_eq, runQuery_eq]
  unfold Database.table Database.table?
  cases body : q.body with
  | explain text => exact ⟨rfl, h⟩
  | execute op =>
      rw [body] at present
      dsimp only at present ⊢
      by_cases explained : explain = true
      · simp only [if_pos explained]
        exact ⟨trivial, h⟩
      by_cases missing : params.length < q.params
      · simp only [if_neg explained, if_pos missing]
        exact ⟨trivial, h⟩
      simp only [if_neg explained, if_neg missing]
      -- a table that the one lacks the other lacks, and two that are there differ in the past only
      cases found : db.tables.find? (foldCase q.table) with
      | none =>
          rw [found] at asked
          generalize db'.tables.find? (foldCase q.table) = found' at asked
          cases asked
          exact ⟨rfl, h⟩
      | some t =>
          rw [found] at asked
          generalize db'.tables.find? (foldCase q.table) = found' at asked
          obtain ⟨same⟩ | _ := asked
          rename_i t'
          have alike : Prod.map id plain (runOperation op t params now) =
              Prod.map id plain (runOperation op t' params now') := by
            rw [← runOperation_plain present t params now now, same,
              runOperation_plain present t' params now' now]
          obtain ⟨answer, rows⟩ := Prod.mk.inj alike
          exact ⟨answer, h.insert _ rows⟩

end Execution

structure Call where
  program : QueryProgram
  params : List String
  explain : Bool
  now : Instant

def Database.answers (db : Database) :
    List Call → List (Except ExecError QueryOutput × Database)
  | [] => []
  | c :: rest =>
    let answer := Execution.runQuery c.program db c.params c.explain c.now
    answer :: answer.2.answers rest

/-- Two tables look alike at present. -/
structure Table.SamePresent (t t' : Table) : Prop where
  size : t.size = t'.size
  get? : ∀ k, t.get? k none = t'.get? k none
  scan : t.scan none = t'.scan none

/-- A call is answered alike, and after it the tables look alike at present. -/
structure AnsweredAlike (a a' : Except ExecError QueryOutput × Database) : Prop where
  answer : a.1 = a'.1
  tables : ∀ name,
    Option.Rel Table.SamePresent (a.2.tables.find? name) (a'.2.tables.find? name)

/-- Tables that differ at most in the past look alike at present. -/
theorem samePresent_of_plain_eq (same : t.plain = t'.plain) : t.SamePresent t' where
  size := by rw [← t.size_plain, same, size_plain]
  get? k := by rw [← t.get?_plain k none, same, get?_plain]
  scan := by rw [← t.scan_plain none, same, scan_plain]

theorem TablesAgree.samePresent (h : TablesAgree tables tables') (name : String) :
    Option.Rel Table.SamePresent (tables.find? name) (tables'.find? name) := by
  have same := h name
  generalize tables.find? name = t, tables'.find? name = t' at same
  cases same with
  | none => exact .none
  | some same => exact .some (samePresent_of_plain_eq same)

theorem answers_agree (h : TablesAgree db.tables db'.tables) {calls : List Call}
    (present : ∀ c ∈ calls, c.program.asksPast = false) :
    List.Forall₂ AnsweredAlike (db.answers calls) (db'.answers calls) := by
  induction calls generalizing db db' with
  | nil => exact .nil
  | cons c rest ih =>
      obtain ⟨here, present⟩ := List.forall_mem_cons.mp present
      obtain ⟨answer, after⟩ :=
        Execution.runQuery_agree here h c.params c.explain c.now c.now
      exact .cons ⟨answer, after.samePresent⟩ (ih after present)

/-- **Twins agree on the present.** Of two schemas that differ only in which relations keep history,
the empty databases answer all queries of the present alike, whatever their instants are, and after
each of them their tables look alike. -/
theorem twins_agree (twins : s.Twins s') (root root' : Path) {calls : List Call}
    (present : ∀ c ∈ calls, c.program.asksPast = false) :
    List.Forall₂ AnsweredAlike ((Database.new s root).answers calls)
      ((Database.new s' root').answers calls) :=
  answers_agree (twins.tablesAgree_new root root') present

namespace Execution

def northern : Access := ⟨some [.const .integer (.integer 2), .const .integer (.integer 1)], []⟩

/-- A district is put in, renamed, taken out before the instant of its renaming, and put in twice
more. -/
def returning : List Call :=
  let put : Operation :=
    .insert [(0, .const .integer (.integer 1)), (1, .param 0 .integer)]
  [⟨⟨1, "District", .execute put⟩, ["2"], false, .first⟩,
    ⟨⟨0, "district", .execute (.update [(2, .const (.varchar 10) (.text "north"))] northern)⟩, [],
      false, .last⟩,
    ⟨⟨0, "district", .execute (.delete northern)⟩, [], false, Table.noon⟩,
    ⟨⟨1, "district", .execute put⟩, ["2"], false, .first⟩,
    ⟨⟨1, "district", .execute put⟩, ["2"], false, .last⟩,
    ⟨⟨0, "district", .execute (.select [1, 2] none ⟨none, []⟩)⟩, [], false, .first⟩]

theorem twins_agree_returning :
    (((Database.new ⟨[district]⟩ ⟨"data"⟩).answers returning).map (·.1)) =
        [.ok (.affected 1), .ok (.affected 1), .ok (.affected 1), .ok (.affected 1),
          .error (refusal (.duplicateKey "district" [.integer 2, .integer 1])),
          .ok (.resultSet ["d_id", "d_name"] [[.integer 2, .null]])] ∧
      List.Forall₂ AnsweredAlike
        ((Database.new ⟨[district]⟩ ⟨"data"⟩).answers returning)
        ((Database.new ⟨[district.plain]⟩ ⟨"data"⟩).answers returning) := by
  have twins : Schema.Twins ⟨[district]⟩ ⟨[district.plain]⟩ := .cons ⟨rfl, rfl, rfl⟩ .nil
  have present : ∀ c ∈ returning, c.program.asksPast = false := by decide
  exact ⟨by decide +kernel, twins_agree twins _ _ present⟩

end Execution

end TemporalDB
