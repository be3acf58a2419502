import TemporalDB.Proofs.Assembly.Definition
import TemporalDB.Proofs.Assembly.Line
import TemporalDB.Proofs.Sql.Declarations

/-!
# Relations, written and read

A relation is written as its name, its columns and its key, and the key names its columns. A name
is resolved to the first column that has it, so a relation is read back just if every column of the
key is the first of its name. This is so for what declarations give, since there names differ, and
for what was read from any listing, since there every place of a key was found by a name.
-/

namespace TemporalDB

open Text Listing

/-- The column at a place is the first of its name. -/
def FirstNamed (columns : List Column) (i : Nat) : Prop :=
  ∃ c, columns[i]? = some c ∧ (columns.findIdx? fun d => d.name = c.name) = some i

/-- A relation that a listing can hold: declarations can give the types of its columns, and its key
has columns, each the first of its name. -/
structure Relation.Writable (r : Relation) : Prop where
  types : r.Admitted
  key_ne_nil : r.primaryKey ≠ []
  key : ∀ i ∈ r.primaryKey, FirstNamed r.columns i

/-- Where names differ, every column is the first of its name. -/
theorem firstNamed_of_namesDiffer {columns : List Column} {i : Nat}
    (differ : NamesDiffer (columns.map (·.name))) (inside : i < columns.length) :
    FirstNamed columns i := by
  refine ⟨columns[i], List.getElem?_eq_getElem inside, ?_⟩
  rw [List.findIdx?_eq_some_iff_getElem]
  refine ⟨inside, decide_eq_true rfl, ?_⟩
  intro j before
  have other : sameName columns[j].name columns[i].name = false := by
    have h := List.pairwise_iff_getElem.mp (List.pairwise_map.mp differ)
    exact h j i (Nat.lt_trans before inside) inside before
  rw [sameName, decide_eq_false_iff_not] at other
  rw [decide_eq_true_eq]
  intro same
  exact other (congrArg foldCase same)

/-- A relation as a declaration can give it can be held by a listing. -/
theorem Relation.Declared.writable {r : Relation} (h : r.Declared) (types : r.Admitted) :
    r.Writable :=
  ⟨types, h.key_ne_nil, fun i hi => firstNamed_of_namesDiffer h.columns (h.key_lt i hi)⟩

namespace Assembly

variable {α : Type} {p : LineParser α} {c : Column} {columns : List Column} {key : List Nat}
  {r : Relation} {rs : List Relation} {s : Schema} {name first : String} {temporal : Bool}
  {i number last bound : Nat} {ts : List Token} {rest : List Line}

/-! ## Runs of lines of one kind -/

theorem numbered_append {ds ds' : List Directive} :
    numbered number (ds ++ ds') = numbered number ds ++ numbered (number + ds.length) ds' := by
  induction ds generalizing number with
  | nil => rfl
  | cons d ds ih =>
      rw [List.cons_append, numbered, numbered, ih, List.length_cons, List.cons_append,
        Nat.add_right_comm, Nat.add_assoc]

theorem linesUpTo_succ {c : Cursor} : linesUpTo first p (bound + 1) c =
    if c.keyword? = some first then
      (lineOf first p >>= fun a => linesUpTo first p bound >>= fun as => pure (a :: as)) c
    else .ok ([], c) := by
  rw [linesUpTo]
  show (if c.keyword? = some first then _ else (pure [] : Assembler (List α))) c = _
  split <;> rfl

/-- Lines of one kind are read up to the first that does not begin with their keyword. -/
theorem linesUpTo_numbered {text : α → Directive} {as : List α}
    (kind : ∀ a ∈ as, (text a).keyword = first)
    (taken : ∀ a ∈ as, p (text a).tokens = .ok (a, []))
    (stop : (⟨rest, last⟩ : Cursor).keyword? ≠ some first) (enough : as.length ≤ bound) :
    linesUpTo first p bound ⟨numbered number (as.map text) ++ rest, last⟩ =
      .ok (as, ⟨rest, last⟩) := by
  induction as generalizing bound number with
  | nil =>
      cases bound with
      | zero => rfl
      | succ bound =>
          -- a bound that is left over does no harm, since the next line has another keyword
          rw [List.map_nil, numbered, List.nil_append, linesUpTo_succ, if_neg stop]
  | cons a as ih =>
      obtain ⟨bound, rfl⟩ := Nat.exists_eq_add_of_le' (Nat.lt_of_lt_of_le (Nat.succ_pos _) enough)
      rw [List.forall_mem_cons] at kind taken
      have begins : (⟨⟨number, (text a).tokens⟩ :: (numbered (number + 1) (as.map text) ++ rest),
          last⟩ : Cursor).keyword? = some first := congrArg some kind.1
      rw [List.map_cons, numbered, List.cons_append, linesUpTo_succ, if_pos begins, bind_apply,
        lineOf_cons taken.1, ok_bind, bind_apply,
        ih kind.2 taken.2 (Nat.le_of_succ_le_succ enough)]
      rfl

theorem length_of_linesUpTo {c : Cursor} {x : List α × Cursor}
    (h : linesUpTo first p bound c = .ok x) : x.1.length + x.2.rest.length = c.rest.length := by
  induction bound generalizing c x with
  | zero =>
      cases h
      exact Nat.zero_add _
  | succ bound ih =>
      rw [linesUpTo_succ] at h
      split_ifs at h
      · obtain ⟨y, hy, h⟩ := bind_eq_ok_iff.mp h
        obtain ⟨z, hz, h⟩ := bind_eq_ok_iff.mp h
        cases h
        obtain ⟨l, -, line, -⟩ := exists_of_lineOf hy
        have others := ih hz
        dsimp only
        rw [line, List.length_cons, List.length_cons]
        omega
      · cases h
        exact Nat.zero_add _

/-- Each item of lines of one kind was taken from some line. -/
theorem exists_of_linesUpTo {c : Cursor} {x : List α × Cursor}
    (h : linesUpTo first p bound c = .ok x) : ∀ a ∈ x.1, ∃ ts rest, p ts = .ok (a, rest) := by
  induction bound generalizing c x with
  | zero =>
      cases h
      exact List.forall_mem_nil _
  | succ bound ih =>
      rw [linesUpTo_succ] at h
      split_ifs at h
      · obtain ⟨y, hy, h⟩ := bind_eq_ok_iff.mp h
        obtain ⟨z, hz, h⟩ := bind_eq_ok_iff.mp h
        cases h
        obtain ⟨l, w, -, hw, hwy⟩ := exists_of_lineOf hy
        rw [List.forall_mem_cons]
        exact ⟨⟨l.tokens, w.2, hwy ▸ hw⟩, ih hz⟩
      · cases h
        exact List.forall_mem_nil _

/-! ## Columns and keys -/

theorem relationLine_tokens : relationLine [.word "relation", .quoted name,
    .word (if temporal then "temporal" else "plain")] = .ok ((name, temporal), []) := by
  cases temporal <;> rfl

theorem columnLine_ofColumn (h : c.type.Admitted) :
    columnLine (ofColumn c).tokens = .ok (c, []) := by
  have flag : (optionalKeyword "notnull" >>= fun notNull => finish >>= fun _ =>
      pure ⟨c.name, c.type, notNull⟩ : LineParser Column)
        (if c.notNull then [.word "notnull"] else []) = .ok (c, []) := by
    obtain ⟨name, type, notNull⟩ := c
    cases notNull <;> rfl
  exact takes_keyword.bind_line
    (takes_string.bind_line ((takes_scalarType h).bind_line flag))

theorem takes_keyColumn (h : (columns.findIdx? fun d => d.name = name) = some i) :
    Takes (keyColumn columns) [.quoted name] i := by
  rw [keyColumn, ← List.append_nil [_]]
  refine takes_string.bind ?_
  rw [h]
  exact Takes.pure

/-- A key is read back from the names of its columns, if each is the first of its name. -/
theorem keyLine_tokens (some : key ≠ []) (firsts : ∀ i ∈ key, FirstNamed columns i) :
    keyLine columns (.word "key" :: key.map fun i => .quoted ((columns[i]?).elim "" (·.name))) =
      .ok (key, []) := by
  have names : many (keyColumn columns)
      (key.flatMap fun i => [.quoted ((columns[i]?).elim "" (·.name))]) = .ok (key, []) := by
    refine many_flatMap (fun i hi => ?_) fun _ _ => List.cons_ne_nil _ _
    obtain ⟨c, hc, found⟩ := firsts i hi
    rw [hc]
    exact takes_keyColumn found
  rw [← List.map_eq_flatMap] at names
  have filled : (if key.isEmpty then refuse .emptyKey else pure key : LineParser (List Nat)) [] =
      .ok (key, []) := by
    rw [if_neg (by simpa using some)]
    rfl
  have named : Takes (keyword "key") [.word "key"] ⟨⟩ := takes_keyword
  refine named.bind_line ?_
  rw [bind_apply, names]
  exact filled

/-- The type of a column that was read is one that declarations can give. -/
theorem admitted_of_columnLine {x : Column × List Token} (h : columnLine ts = .ok x) :
    x.1.type.Admitted := by
  obtain ⟨_, -, h⟩ := exists_of_bind h
  obtain ⟨name, -, h⟩ := exists_of_bind h
  obtain ⟨type, htype, h⟩ := exists_of_bind h
  obtain ⟨notNull, -, h⟩ := exists_of_bind h
  obtain ⟨_, -, h⟩ := exists_of_bind h
  cases h
  exact admitted_of_scalarType htype

/-- Each item up to the end of a line was taken from somewhere in it. -/
theorem exists_of_manyUpTo {item : LineParser α} {x : List α × List Token}
    (h : manyUpTo item bound ts = .ok x) : ∀ a ∈ x.1, ∃ ts rest, item ts = .ok (a, rest) := by
  induction bound generalizing ts x with
  | zero =>
      cases h
      exact List.forall_mem_nil _
  | succ bound ih =>
      rw [manyUpTo_succ] at h
      split_ifs at h
      · cases h
        exact List.forall_mem_nil _
      · obtain ⟨y, hy, h⟩ := exists_of_bind h
        obtain ⟨z, hz, h⟩ := exists_of_bind h
        cases h
        rw [List.forall_mem_cons]
        exact ⟨⟨ts, y.2, hy⟩, ih hz⟩

/-- A column of a key that was read is the first of its name. -/
theorem firstNamed_of_keyColumn {x : Nat × List Token} (h : keyColumn columns ts = .ok x) :
    FirstNamed columns x.1 := by
  obtain ⟨⟨name, ts⟩, -, h⟩ := exists_of_bind h
  cases found : columns.findIdx? fun d => d.name = name with
  | none =>
      simp only [found] at h
      cases h
  | some i =>
      simp only [found] at h
      cases h
      obtain ⟨inside, named, -⟩ := List.findIdx?_eq_some_iff_getElem.mp found
      refine ⟨columns[i], List.getElem?_eq_getElem inside, ?_⟩
      rw [of_decide_eq_true named]
      exact found

/-- A key that was read has columns, each the first of its name. -/
theorem firstNamed_of_keyLine {x : List Nat × List Token} (h : keyLine columns ts = .ok x) :
    x.1 ≠ [] ∧ ∀ i ∈ x.1, FirstNamed columns i := by
  obtain ⟨_, -, h⟩ := exists_of_bind h
  obtain ⟨⟨key, left⟩, hkey, h⟩ := exists_of_bind h
  dsimp only at h
  split_ifs at h with empty
  · cases h
  · cases h
    refine ⟨by simpa using empty, ?_⟩
    intro i hi
    obtain ⟨ts, rest, taken⟩ := exists_of_manyUpTo hkey i hi
    exact firstNamed_of_keyColumn taken

/-! ## Relations -/

theorem numbered_ofRelation : numbered number (ofRelation r) ++ rest =
    ⟨number, [.word "relation", .quoted r.name, .word (if r.temporal then "temporal" else "plain")]⟩ ::
      (numbered (number + 1) (r.columns.map ofColumn) ++
        ⟨number + 1 + r.columns.length, .word "key" :: r.primaryKey.map fun i =>
          .quoted ((r.columns[i]?).elim "" (·.name))⟩ ::
        ⟨number + 1 + r.columns.length + 1, [.word "end"]⟩ :: rest) := by
  rw [ofRelation, List.cons_append, numbered, numbered_append, List.cons_append,
    List.append_assoc, List.length_map]
  rfl

/-- **A relation is read back from its lines**, whatever lines come after them. -/
theorem relation_ofRelation (h : r.Writable) :
    relation ⟨numbered number (ofRelation r) ++ rest, last⟩ = .ok (r, ⟨rest, last⟩) := by
  -- The columns end at the line of the key, which begins with another keyword.
  have columns : ∀ {number : Nat} {below : List Line},
      (⟨below, last⟩ : Cursor).keyword? ≠ some "column" →
        linesOf "column" columnLine ⟨numbered number (r.columns.map ofColumn) ++ below, last⟩ =
          .ok (r.columns, ⟨below, last⟩) := by
    intro number below stop
    refine linesUpTo_numbered (fun _ _ => rfl) (fun c hc => columnLine_ofColumn (h.types c hc))
      stop ?_
    rw [List.length_append, length_numbered, List.length_map]
    exact Nat.le_add_right _ _
  have ends : endLine [.word "end"] = .ok (⟨⟩, []) := rfl
  have key : (some "key" : Option String) ≠ some "column" := by decide
  rw [numbered_ofRelation, relation, bind_apply, lineOf_cons relationLine_tokens, ok_bind]
  dsimp only
  rw [bind_apply, columns (by exact key), ok_bind, bind_apply,
    lineOf_cons (keyLine_tokens h.key_ne_nil h.key), ok_bind, bind_apply, lineOf_cons ends]
  rfl

theorem writable_of_relation {c : Cursor} {x : Relation × Cursor} (h : relation c = .ok x) :
    x.1.Writable := by
  obtain ⟨⟨⟨name, temporal⟩, _⟩, -, h⟩ := bind_eq_ok_iff.mp h
  obtain ⟨⟨columns, _⟩, hcolumns, h⟩ := bind_eq_ok_iff.mp h
  obtain ⟨⟨key, _⟩, hkey, h⟩ := bind_eq_ok_iff.mp h
  obtain ⟨_, -, h⟩ := bind_eq_ok_iff.mp h
  cases h
  obtain ⟨l, y, -, taken, rfl⟩ := exists_of_lineOf hkey
  obtain ⟨some, firsts⟩ := firstNamed_of_keyLine taken
  refine ⟨?_, some, firsts⟩
  intro column hcolumn
  obtain ⟨ts, rest, read⟩ := exists_of_linesUpTo hcolumns column hcolumn
  exact admitted_of_columnLine read

theorem length_of_relation {c : Cursor} {x : Relation × Cursor} (h : relation c = .ok x) :
    x.1.columns.length + x.2.rest.length ≤ c.rest.length := by
  obtain ⟨⟨⟨name, temporal⟩, c₁⟩, hname, h⟩ := bind_eq_ok_iff.mp h
  obtain ⟨⟨columns, c₂⟩, hcolumns, h⟩ := bind_eq_ok_iff.mp h
  obtain ⟨⟨key, c₃⟩, hkey, h⟩ := bind_eq_ok_iff.mp h
  obtain ⟨⟨_, c₄⟩, hend, h⟩ := bind_eq_ok_iff.mp h
  cases h
  obtain ⟨_, -, first, -⟩ := exists_of_lineOf hname
  have each := length_of_linesUpTo hcolumns
  obtain ⟨_, -, below, -⟩ := exists_of_lineOf hkey
  obtain ⟨_, -, last, -⟩ := exists_of_lineOf hend
  dsimp only at first each below last ⊢
  rw [below, last, List.length_cons, List.length_cons] at each
  rw [first, List.length_cons]
  omega

/-! ## Schemas -/

theorem relationsUpTo_succ {c : Cursor} : relationsUpTo (bound + 1) c =
    if c.keyword?.isSome then
      (relation >>= fun r => relationsUpTo bound >>= fun rs => pure (r :: rs)) c
    else .ok ([], c) := by
  rw [relationsUpTo]
  show (if c.keyword?.isSome then _ else (pure [] : Assembler (List Relation))) c = _
  split <;> rfl

theorem relationsUpTo_flatMap (h : ∀ r ∈ rs, r.Writable) (enough : rs.length ≤ bound) :
    relationsUpTo bound ⟨numbered number (rs.flatMap ofRelation), last⟩ = .ok (rs, ⟨[], last⟩) := by
  induction rs generalizing bound number with
  | nil => cases bound <;> rfl
  | cons r rs ih =>
      obtain ⟨bound, rfl⟩ := Nat.exists_eq_add_of_le' (Nat.lt_of_lt_of_le (Nat.succ_pos _) enough)
      rw [List.forall_mem_cons] at h
      have begins : (⟨numbered number (ofRelation r ++ rs.flatMap ofRelation),
          last⟩ : Cursor).keyword?.isSome = true := rfl
      rw [List.flatMap_cons]
      rw [relationsUpTo_succ, if_pos begins, bind_apply, numbered_append, relation_ofRelation h.1,
        ok_bind, bind_apply, ih h.2 (Nat.le_of_succ_le_succ enough)]
      rfl

theorem writable_of_relationsUpTo {c : Cursor} {x : List Relation × Cursor}
    (h : relationsUpTo bound c = .ok x) : ∀ r ∈ x.1, r.Writable := by
  induction bound generalizing c x with
  | zero =>
      cases h
      exact List.forall_mem_nil _
  | succ bound ih =>
      rw [relationsUpTo_succ] at h
      split_ifs at h
      · obtain ⟨y, hy, h⟩ := bind_eq_ok_iff.mp h
        obtain ⟨z, hz, h⟩ := bind_eq_ok_iff.mp h
        cases h
        rw [List.forall_mem_cons]
        exact ⟨writable_of_relation hy, ih hz⟩
      · cases h
        exact List.forall_mem_nil _

theorem length_of_relationsUpTo {c : Cursor} {x : List Relation × Cursor}
    (h : relationsUpTo bound c = .ok x) : ∀ r ∈ x.1, r.columns.length ≤ c.rest.length := by
  induction bound generalizing c x with
  | zero =>
      cases h
      exact List.forall_mem_nil _
  | succ bound ih =>
      rw [relationsUpTo_succ] at h
      split_ifs at h
      · obtain ⟨y, hy, h⟩ := bind_eq_ok_iff.mp h
        obtain ⟨z, hz, h⟩ := bind_eq_ok_iff.mp h
        cases h
        have first := length_of_relation hy
        rw [List.forall_mem_cons]
        refine ⟨by omega, ?_⟩
        intro r hr
        have others := ih hz r hr
        omega
      · cases h
        exact List.forall_mem_nil _

def definitionUnit (s : Schema) : CompiledUnit :=
  ⟨abiVersion, [EntryPoint.makeDatabase, EntryPoint.getSize], .definition s⟩

theorem compiledUnit_definitionDirectives (h : ∀ r ∈ s.relations, r.Writable) :
    compiledUnit ⟨numbered 2 (definitionDirectives s), last⟩ =
      .ok (definitionUnit s, ⟨[], last⟩) := by
  have kind : ∀ c : Cursor, ofExcept (onLine unitLine ⟨2, [.word "unit", .word "definition"]⟩) c =
      .ok ("definition", c) := fun _ => rfl
  have exports : linesOf "export" exportLine
      ⟨numbered 3 ([EntryPoint.makeDatabase, EntryPoint.getSize].map fun w =>
        ⟨"export", some [.word w]⟩) ++ numbered 5 (s.relations.flatMap ofRelation), last⟩ =
          .ok ([EntryPoint.makeDatabase, EntryPoint.getSize],
            ⟨numbered 5 (s.relations.flatMap ofRelation), last⟩) := by
    -- behind the exports come relations, or the listing ends
    refine linesUpTo_numbered (fun _ _ => rfl) (fun _ _ => rfl) ?_ ?_
    · obtain ⟨_ | ⟨r, rs⟩⟩ := s
      · exact (by decide : (none : Option String) ≠ some "export")
      · exact (by decide : (some "relation" : Option String) ≠ some "export")
    · rw [List.length_append]
      exact Nat.le_add_right _ _
  have enough : s.relations.length ≤ (numbered 5 (s.relations.flatMap ofRelation)).length := by
    rw [length_numbered]
    exact length_le_flatMap fun r _ => List.cons_ne_nil _ _
  have body : (Program.definition <$> definition)
      ⟨numbered 5 (s.relations.flatMap ofRelation), last⟩ = .ok (.definition s, ⟨[], last⟩) := by
    show ((relationsUpTo _ _ >>= fun x => Except.ok (Schema.mk x.1, x.2)) >>= fun x =>
      Except.ok (Program.definition x.1, x.2)) = _
    rw [relationsUpTo_flatMap h enough]
    rfl
  show compiledUnit ⟨⟨2, [.word "unit", .word "definition"]⟩ :: (numbered 3
    ([EntryPoint.makeDatabase, EntryPoint.getSize].map fun w => ⟨"export", some [.word w]⟩) ++
      numbered 5 (s.relations.flatMap ofRelation)), last⟩ = _
  rw [compiledUnit, bind_apply, line_cons, ok_bind, bind_apply, kind, ok_bind, bind_apply, exports,
    ok_bind]
  show ((Program.definition <$> definition) >>= _) _ = _
  rw [bind_apply, body]
  rfl

/-- The listing of a schema is assembled to the unit of its definition. -/
theorem assemble_ofSchema (h : ∀ r ∈ s.relations, r.Writable) :
    assemble (ofSchema s).text = .ok (definitionUnit s) := by
  rw [assemble_ofSchema_eq, assembleLines, compiledUnit_definitionDirectives h]
  rfl

theorem exists_of_unitProgram {p : Assembler Program} {exports : List String} {below : Cursor}
    {x : CompiledUnit × Cursor} (h : (do
      let program ← p
      match (← get).rest with
      | l :: _ => ofExcept (.error ⟨l.number, .contentAfterEnd⟩)
      | [] => pure ⟨abiVersion, exports, program⟩ : Assembler CompiledUnit) below = .ok x) :
    ∃ left, p below = .ok (x.1.program, left) ∧ x.1.abi = abiVersion := by
  obtain ⟨⟨program, left⟩, hprogram, h⟩ := bind_eq_ok_iff.mp h
  obtain ⟨_ | ⟨l, ls⟩, last⟩ := left
  · cases h
    exact ⟨_, hprogram, rfl⟩
  · cases h

/-- **A unit that was read** is of the version that is written, and its program was read below its
header as that of a definition or that of a query. -/
theorem cases_of_compiledUnit {c : Cursor} {x : CompiledUnit × Cursor}
    (h : compiledUnit c = .ok x) :
    x.1.abi = abiVersion ∧ ∃ below : Cursor, below.rest.length < c.rest.length ∧
      ((∃ y, definition below = .ok y ∧ x.1.program = .definition y.1) ∨
        ∃ y, query below = .ok y ∧ x.1.program = .query y.1) := by
  obtain ⟨⟨header, c₁⟩, hheader, h⟩ := bind_eq_ok_iff.mp h
  obtain ⟨⟨kind, c₂⟩, hkind, h⟩ := bind_eq_ok_iff.mp h
  obtain ⟨⟨exports, below⟩, hexports, h⟩ := bind_eq_ok_iff.mp h
  dsimp only at h
  have shorter : below.rest.length < c.rest.length := by
    have first := length_of_line hheader
    obtain ⟨-, rfl⟩ := eq_of_ofExcept hkind
    have each := length_of_linesUpTo hexports
    dsimp only at first each
    omega
  split_ifs at h
  · obtain ⟨left, hprogram, version⟩ := exists_of_unitProgram h
    obtain ⟨y, hy, hprogram⟩ := bind_eq_ok_iff.mp hprogram
    have same := congrArg Prod.fst (Except.ok.inj hprogram)
    exact ⟨version, below, shorter, Or.inl ⟨y, hy, same.symm⟩⟩
  · obtain ⟨left, hprogram, version⟩ := exists_of_unitProgram h
    obtain ⟨y, hy, hprogram⟩ := bind_eq_ok_iff.mp hprogram
    have same := congrArg Prod.fst (Except.ok.inj hprogram)
    exact ⟨version, below, shorter, Or.inr ⟨y, hy, same.symm⟩⟩
  · cases h

/-- A unit that was assembled was read from the lines of the listing. -/
theorem exists_compiledUnit_of_assemble {listing : String} {u : CompiledUnit}
    (h : assemble listing = .ok u) :
    ∃ c x, compiledUnit c = .ok x ∧ x.1 = u ∧ c.rest.length ≤ listing.length + 1 := by
  unfold assemble at h
  cases read : readLines listing with
  | error e =>
      rw [read] at h
      cases h
  | ok ls =>
      rw [read] at h
      dsimp only at h
      unfold assembleLines at h
      have few := Nat.le_trans (length_of_readLinesFrom read) length_lines_le
      cases taken : compiledUnit ⟨ls, (lines listing.toList).length⟩ with
      | error e =>
          rw [taken] at h
          cases h
      | ok x =>
          rw [taken] at h
          cases h
          exact ⟨_, x, taken, rfl, few⟩

/-- The relations of a definition that was assembled can be held by a listing. -/
theorem writable_of_assemble {listing : String} {u : CompiledUnit}
    (h : assemble listing = .ok u) (hs : u.program = .definition s) :
    ∀ r ∈ s.relations, r.Writable := by
  obtain ⟨c, x, read, rfl, -⟩ := exists_compiledUnit_of_assemble h
  obtain ⟨-, below, -, ⟨y, hy, program⟩ | ⟨y, -, program⟩⟩ := cases_of_compiledUnit read
  · obtain ⟨z, hz, hy⟩ := bind_eq_ok_iff.mp hy
    cases hy
    cases program.symm.trans hs
    exact writable_of_relationsUpTo hz
  · cases program.symm.trans hs

end Assembly

end TemporalDB
