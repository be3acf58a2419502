import TemporalDB.Proofs.Assembly.Operation
import TemporalDB.Proofs.Outcome

/-!
# Queries, written and read

The listing of a query is assembled to the program that it was written from: the number of
parameters, the table, and the operation or the text that explains it.
-/

namespace TemporalDB

open Text Listing

namespace Assembly

variable {α : Type} {p : LineParser α} {a : α} {op : Operation} {body : List Directive}
  {params : Nat} {table : String} {l : Line} {ls : List Line} {number last : Nat}
  {ts : List Token} {expected : String}

/-! ## What the lines hold -/

theorem isKeyword_keyword : IsKeyword op.keyword := by
  cases op <;> (rw [Operation.keyword]; decide)

theorem readable_ofOperation : ∀ d ∈ ofOperation op, d.Readable := by
  rw [ofOperation_eq, List.forall_mem_cons]
  refine ⟨⟨isKeyword_keyword, List.forall_mem_nil _⟩, ?_⟩
  intro d hd
  rcases List.mem_append.mp hd with hc | hs
  · obtain ⟨c, -, rfl⟩ := List.mem_map.mp hc
    exact readable_ofClause
  · obtain rfl := List.mem_singleton.mp hs
    exact Directive.readable_mk (by decide) (List.forall_mem_nil _)

def explanation (text : String) : Directive := ⟨"explain", some [.quoted text]⟩

theorem readable_explanation {text : String} : (explanation text).Readable :=
  Directive.readable_mk (by decide) (List.forall_mem_singleton.mpr trivial)

theorem readable_queryHeader : ∀ d ∈ queryHeader params table, d.Readable := by
  unfold queryHeader
  simp only [List.forall_mem_cons]
  refine ⟨?_, ?_, ?_, ?_, List.forall_mem_nil _⟩
  · exact Directive.readable_mk (by decide)
      (List.forall_mem_singleton.mpr (by decide : IsWord "query"))
  · exact Directive.readable_mk (by decide)
      (List.forall_mem_singleton.mpr (by decide : IsWord EntryPoint.query))
  · exact Directive.readable_mk (by decide) (List.forall_mem_singleton.mpr isWord_showNat)
  · exact Directive.readable_mk (by decide) (List.forall_mem_singleton.mpr trivial)

/-! ## The header -/

theorem paramsLine_tokens (h : params < bound64) :
    paramsLine [.word "params", .word (showNat params)] = .ok (params, []) :=
  takes_keyword.bind_line ((takes_index h).bind_end rfl)

theorem tableLine_tokens : tableLine [.word "table", .quoted table] = .ok (table, []) := rfl

def programLines (params : Nat) (table : String) (ls : List Line) : List Line :=
  ⟨4, [.word "params", .word (showNat params)]⟩ :: ⟨5, [.word "table", .quoted table]⟩ :: ls

/-- The lines of a query's listing, as they are read below its comment. -/
theorem numbered_queryHeader : numbered 2 (queryHeader params table ++ body) =
    ⟨2, [.word "unit", .word "query"]⟩ :: ⟨3, [.word "export", .word EntryPoint.query]⟩ ::
      programLines params table (numbered 6 body) := rfl

/-- The unit of a query is read as its program is, if no line comes after that. -/
theorem compiledUnit_queryHeader :
    compiledUnit ⟨numbered 2 (queryHeader params table ++ body), last⟩ =
      (query ⟨programLines params table (numbered 6 body), last⟩ >>= fun x =>
        match x.2.rest with
        | l :: _ => .error ⟨l.number, .contentAfterEnd⟩
        | [] => .ok (⟨abiVersion, [EntryPoint.query], .query x.1⟩, x.2)) := by
  have kind : ∀ c : Cursor,
      ofExcept (onLine unitLine ⟨2, [.word "unit", .word "query"]⟩) c = .ok ("query", c) :=
    fun _ => rfl
  have exports : linesOf "export" exportLine ⟨⟨3, [.word "export", .word EntryPoint.query]⟩ ::
      programLines params table (numbered 6 body), last⟩ =
        .ok ([EntryPoint.query], ⟨programLines params table (numbered 6 body), last⟩) := rfl
  have program : (Program.query <$> query) ⟨programLines params table (numbered 6 body), last⟩ =
      query ⟨programLines params table (numbered 6 body), last⟩ >>= fun x =>
        .ok (.query x.1, x.2) := rfl
  rw [numbered_queryHeader, compiledUnit, bind_apply, line_cons, ok_bind, bind_apply, kind,
    ok_bind, bind_apply, exports, ok_bind]
  show ((Program.query <$> query) >>= _) _ = _
  rw [bind_apply, program]
  cases query ⟨programLines params table (numbered 6 body), last⟩ with
  | error e => rfl
  | ok x =>
      obtain ⟨q, left, last⟩ := x
      cases left <;> rfl

/-! ## The body -/

theorem query_execute (hn : params < bound64) (wellFormed : op.WellFormed)
    (rereads : op.Rereads) :
    query ⟨programLines params table (numbered 6 (ofOperation op)), last⟩ =
      .ok (⟨params, table, .execute op⟩, ⟨[], last⟩) := by
  have first : ∀ c : Cursor, ofExcept (onLine operationLine ⟨6, [.word op.keyword]⟩) c =
      .ok (.inl op.keyword, c) := by
    intro c
    cases op <;> rfl
  have bound : (numbered 7 (op.clauses.map ofClause ++ [stop])).length = op.clauses.length + 1 := by
    rw [length_numbered, List.length_append, List.length_map, List.length_singleton]
  have clauses : clausesUpTo (op.clauses.length + 1) false
      ⟨numbered 7 (op.clauses.map ofClause ++ [stop]), last⟩ =
        .ok (placed 7 op.clauses, ⟨[], last⟩) :=
    clausesUpTo_numbered (writable_clauses wellFormed rereads)
      (Nat.le_trans (Nat.le_of_eq (Nat.add_zero _)) countP_isSeek_clauses) (Nat.le_refl _)
  rw [programLines, query, bind_apply, lineOf_cons (paramsLine_tokens hn), ok_bind, bind_apply,
    lineOf_cons tableLine_tokens, ok_bind, ofOperation_eq, numbered, bind_apply, line_cons, ok_bind,
    bind_apply]
  show (ofExcept (onLine operationLine ⟨6, [.word op.keyword]⟩) _ >>= _) = _
  rw [first]
  show (clausesUpTo (numbered 7 (op.clauses.map ofClause ++ [stop])).length false _ >>= _) = _
  rw [bound, clauses]
  show (ofExcept (operationOf op.keyword 6 (placed 7 op.clauses)) _ >>= _) = _
  rw [operationOf_placed wellFormed]
  rfl

theorem query_explain {text : String} (hn : params < bound64) :
    query ⟨programLines params table (numbered 6 [explanation text]), last⟩ =
      .ok (⟨params, table, .explain text⟩, ⟨[], last⟩) := by
  rw [programLines, query, bind_apply, lineOf_cons (paramsLine_tokens hn), ok_bind, bind_apply,
    lineOf_cons tableLine_tokens, ok_bind]
  rfl

/-! ## The listing -/

theorem assemble_queryHeader {description : String} {q : QueryProgram}
    (readable : ∀ d ∈ body, d.Readable)
    (h : ∀ last, query ⟨programLines params table (numbered 6 body), last⟩ =
      .ok (q, ⟨[], last⟩)) :
    assemble (comment description ++ textOf (queryHeader params table ++ body)) =
      .ok ⟨abiVersion, [EntryPoint.query], .query q⟩ := by
  have all : ∀ d ∈ queryHeader params table ++ body, d.Readable := by
    intro d hd
    rcases List.mem_append.mp hd with hh | hb
    · exact readable_queryHeader d hh
    · exact readable d hb
  rw [assemble, readLines_comment_textOf description all]
  dsimp only
  rw [assembleLines, compiledUnit_queryHeader, h]
  rfl

/-- **The listing of an operation is assembled to the operation.** -/
theorem assemble_execute {description : String} (hn : params < bound64)
    (wellFormed : op.WellFormed) (rereads : op.Rereads) :
    assemble (comment description ++ textOf (queryHeader params table ++ ofOperation op)) =
      .ok ⟨abiVersion, [EntryPoint.query], .query ⟨params, table, .execute op⟩⟩ :=
  assemble_queryHeader readable_ofOperation fun _ => query_execute hn wellFormed rereads

/-- **The listing of an explanation is assembled to the text**, whatever it is. -/
theorem assemble_explain {description text : String} (hn : params < bound64) :
    assemble (comment description ++ textOf (queryHeader params table ++ [explanation text])) =
      .ok ⟨abiVersion, [EntryPoint.query], .query ⟨params, table, .explain text⟩⟩ :=
  assemble_queryHeader (List.forall_mem_singleton.mpr readable_explanation)
    fun _ => query_explain hn

/-- **Different operations have different texts.** -/
theorem operationText_injective {op' : Operation} (wellFormed : op.WellFormed)
    (rereads : op.Rereads) (wellFormed' : op'.WellFormed) (rereads' : op'.Rereads)
    (h : operationText op = operationText op') : op = op' := by
  have split (op : Operation) : textOf (queryHeader 0 "" ++ ofOperation op) =
      textOf (queryHeader 0 "") ++ operationText op := textOf_append _ _
  have read : assemble (comment "" ++ textOf (queryHeader 0 "" ++ ofOperation op)) =
      .ok ⟨abiVersion, [EntryPoint.query], .query ⟨0, "", .execute op⟩⟩ :=
    assemble_execute (by decide) wellFormed rereads
  rw [split, h, ← split, assemble_execute (by decide) wellFormed' rereads'] at read
  cases read
  rfl

end Assembly

end TemporalDB
