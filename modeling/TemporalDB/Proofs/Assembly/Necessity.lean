import TemporalDB.Proofs.Assembly.Query

/-!
# What a listing needs

The listing of a query is assembled only if its counts fit 64 bits and its constants are read back
from their texts. So of the queries that can be planned just those are assembled whose clauses a
listing can hold.
-/

namespace TemporalDB

open Text Listing

/-- Nothing else than the constant itself is read from its text. -/
def Operand.Definite : Operand → Prop
  | .param .. => True
  | .const type v => ∀ w, type.readValue v.display = .ok w → w = v

namespace Assembly

variable {α β : Type} {p : LineParser α} {q : α → LineParser β} {ts rest : List Token}
  {o : Operand} {c : Clause} {cs : List Clause} {seen : Bool} {op : Operation} {n : Nat}

/-! ## One line -/

theorem lt_of_index {x : Nat × List Token} (h : index (.word (showNat n) :: rest) = .ok x) :
    n < bound64 := by
  rw [index] at h
  have h := takes_word.of_bind h
  rw [readCount_showNat_eq] at h
  split_ifs at h with small
  · exact small
  · cases h

theorem writable_of_operand {x : Operand × List Token} (admitted : o.type.Admitted)
    (definite : o.Definite) (h : operand (ofOperand o ++ rest) = .ok x) : o.Writable := by
  unfold operand at h
  cases o with
  | param i type =>
      have h := takes_word.of_bind h
      rw [if_pos rfl] at h
      obtain ⟨y, hy, -⟩ := exists_of_bind h
      refine ⟨admitted, ?_, trivial⟩
      rintro _ ⟨⟩
      exact lt_of_index hy
  | const type v =>
      have admitted : type.Admitted := admitted
      have h := takes_word.of_bind h
      rw [if_neg (by decide), if_pos rfl] at h
      have h := takes_string.of_bind ((takes_scalarType admitted).of_bind h)
      cases back : type.readValue v.display with
      | error e =>
          rw [back] at h
          cases h
      | ok w =>
          refine ⟨admitted, by rintro _ ⟨⟩, ?_⟩
          rw [definite w back] at back
          exact back

/-- If items up to the end of a line are read, then each of them is one that can be. -/
theorem forall_of_manyUpTo {item : LineParser α} {text : α → List Token} {P : α → Prop}
    {as : List α} {bound : Nat} {x : List α × List Token} (nonempty : ∀ a ∈ as, text a ≠ [])
    (takes : ∀ a ∈ as, P a → Takes item (text a) a)
    (sound : ∀ a ∈ as, ∀ rest x, item (text a ++ rest) = .ok x → P a)
    (enough : as.length ≤ bound) (h : manyUpTo item bound (as.flatMap text) = .ok x) :
    ∀ a ∈ as, P a := by
  induction as generalizing bound x with
  | nil => exact List.forall_mem_nil _
  | cons a as ih =>
      obtain ⟨bound, rfl⟩ := Nat.exists_eq_add_of_le' (Nat.lt_of_lt_of_le (Nat.succ_pos _) enough)
      rw [List.forall_mem_cons] at nonempty takes sound
      have more : ((a :: as).flatMap text).isEmpty = false := by
        rw [List.isEmpty_eq_false_iff, List.flatMap_cons]
        exact fun he => nonempty.1 (List.append_eq_nil_iff.mp he).1
      rw [manyUpTo_succ, if_neg (by rw [more]; exact Bool.false_ne_true), List.flatMap_cons] at h
      obtain ⟨y, hy, -⟩ := exists_of_bind h
      have first : P a := sound.1 _ _ hy
      obtain ⟨others, hothers, -⟩ := exists_of_bind ((takes.1 first).of_bind h)
      rw [List.forall_mem_cons]
      exact ⟨first, ih nonempty.2 takes.2 sound.2 (Nat.le_of_succ_le_succ enough) hothers⟩

/-- An operand at the end of a line is read only if a listing can hold it. -/
theorem writable_of_last {x : Option Clause × List Token} {k : Operand → LineParser (Option Clause)}
    (admitted : o.type.Admitted) (definite : o.Definite)
    (h : (operand >>= k) (ofOperand o) = .ok x) : o.Writable := by
  obtain ⟨y, hy, -⟩ := exists_of_bind h
  rw [← List.append_nil (ofOperand o)] at hy
  exact writable_of_operand admitted definite hy

/-- **A clause is read only if a listing can hold it.** -/
theorem writable_of_clauseLine {x : Option Clause × List Token}
    (admitted : ∀ o ∈ c.operands, o.type.Admitted) (definite : ∀ o ∈ c.operands, o.Definite)
    (key : c ≠ .seek []) (h : clauseLine seen (ofClause c).tokens = .ok x) : c.Writable := by
  cases c with
  | set column value =>
      have h := clauseLine_set.symm.trans h
      obtain ⟨y, hy, -⟩ := exists_of_bind h
      -- the place takes its word, and what is left of the line is the operand
      have small : column < bound64 := lt_of_index hy
      have last := (takes_index small).of_bind h
      refine ⟨?_, List.forall_mem_singleton.mpr small, key⟩
      exact List.forall_mem_singleton.mpr (writable_of_last (admitted value List.mem_cons_self)
        (definite value List.mem_cons_self) last)
  | seek operands =>
      cases seen with
      | true => cases h
      | false =>
          obtain ⟨y, hy, -⟩ := exists_of_bind (clauseLine_seek.symm.trans h)
          refine ⟨?_, List.forall_mem_nil _, key⟩
          exact forall_of_manyUpTo (fun _ _ => ofOperand_ne_nil) (fun o _ => takes_operand)
            (fun o ho rest x => writable_of_operand (admitted o ho) (definite o ho))
            (length_le_flatMap fun _ _ => ofOperand_ne_nil) hy
  | filter f =>
      have h := clauseLine_filter.symm.trans h
      obtain ⟨y, hy, -⟩ := exists_of_bind h
      have small : f.column < bound64 := lt_of_index hy
      have sign : Takes comparator [.word f.op.symbol] f.op := takes_comparator
      have last := sign.of_bind ((takes_index small).of_bind h)
      refine ⟨?_, List.forall_mem_singleton.mpr small, key⟩
      exact List.forall_mem_singleton.mpr (writable_of_last
        (admitted f.operand List.mem_cons_self) (definite f.operand List.mem_cons_self) last)
  | project columns =>
      obtain ⟨y, hy, -⟩ := exists_of_bind (clauseLine_project.symm.trans h)
      have hy : many index (columns.map fun i => .word (showNat i)) = .ok y := hy
      rw [List.map_eq_flatMap] at hy
      refine ⟨List.forall_mem_nil _, ?_, key⟩
      exact forall_of_manyUpTo (fun _ _ => List.cons_ne_nil _ _) (fun i _ => takes_index)
        (fun i _ rest x => lt_of_index) (length_le_flatMap fun _ _ => List.cons_ne_nil _ _) hy
  | asOf value =>
      have last := clauseLine_asof.symm.trans h
      refine ⟨?_, List.forall_mem_nil _, key⟩
      exact List.forall_mem_singleton.mpr (writable_of_last (admitted value List.mem_cons_self)
        (definite value List.mem_cons_self) last)

theorem unseen_of_clauseLine {x : Option Clause × List Token}
    (h : clauseLine seen (ofClause c).tokens = .ok x) (isSeek : c.isSeek = true) :
    seen = false := by
  cases c with
  | seek operands =>
      cases seen with
      | true => cases h
      | false => rfl
  | _ => cases isSeek

/-! ## All lines -/

/-- The clauses of an operation are read only if a listing can hold each of them. -/
theorem writable_of_clausesUpTo {bound number last : Nat} {x : List (Clause × Nat) × Cursor}
    (admitted : ∀ c ∈ cs, ∀ o ∈ c.operands, o.type.Admitted)
    (definite : ∀ c ∈ cs, ∀ o ∈ c.operands, o.Definite) (key : ∀ c ∈ cs, c ≠ .seek [])
    (h : clausesUpTo (bound + 1) seen ⟨numbered number (cs.map ofClause ++ [stop]), last⟩ = .ok x)
    (enough : cs.length ≤ bound) : ∀ c ∈ cs, c.Writable := by
  induction cs generalizing bound number seen x with
  | nil => exact List.forall_mem_nil _
  | cons c cs ih =>
      rw [List.forall_mem_cons] at admitted definite key
      obtain ⟨bound, rfl⟩ := Nat.exists_eq_add_of_le' (Nat.lt_of_lt_of_le (Nat.succ_pos _) enough)
      cases read : clauseLine seen (ofClause c).tokens with
      | error fault =>
          -- a clause that is not read ends the whole reading with its fault
          have refused : onLine (clauseLine seen) ⟨number, (ofClause c).tokens⟩ =
              .error ⟨number, fault⟩ := by
            simp only [onLine, read]
          rw [List.map_cons, List.cons_append, numbered, clausesUpTo, bind_apply] at h
          change (ofExcept (onLine (clauseLine seen) ⟨number, (ofClause c).tokens⟩) _ >>= _) = _ at h
          rw [refused] at h
          cases h
      | ok y =>
          have first : c.Writable := writable_of_clauseLine admitted.1 definite.1 key.1 read
          rw [List.map_cons, List.cons_append, numbered,
            clausesUpTo_cons (clauseLine_ofClause first (unseen_of_clauseLine read))] at h
          obtain ⟨others, hothers, -⟩ := bind_eq_ok_iff.mp h
          rw [List.forall_mem_cons]
          exact ⟨first, ih admitted.2 definite.2 key.2 hothers (Nat.le_of_succ_le_succ enough)⟩

/-- The program of a query is read only if the count of its parameters fits 64 bits. -/
theorem lt_of_query {params last : Nat} {table : String} {ls : List Line}
    {x : QueryProgram × Cursor} (h : query ⟨programLines params table ls, last⟩ = .ok x) :
    params < bound64 := by
  obtain ⟨y, hy, -⟩ := bind_eq_ok_iff.mp h
  obtain ⟨l, z, hl, hz, -⟩ := exists_of_lineOf hy
  obtain ⟨rfl, -⟩ := List.cons.inj hl
  have named : Takes (keyword "params") [.word "params"] ⟨⟩ := takes_keyword
  obtain ⟨n, hn, -⟩ := exists_of_bind (named.of_bind hz)
  exact lt_of_index hn

/-- The operation of a query is read only if a listing can hold each of its clauses. -/
theorem writable_of_query {params last : Nat} {table : String} {x : QueryProgram × Cursor}
    (admitted : ∀ c ∈ op.clauses, ∀ o ∈ c.operands, o.type.Admitted)
    (definite : ∀ c ∈ op.clauses, ∀ o ∈ c.operands, o.Definite) (key : ∀ c ∈ op.clauses, c ≠ .seek [])
    (h : query ⟨programLines params table (numbered 6 (ofOperation op)), last⟩ = .ok x) :
    ∀ c ∈ op.clauses, c.Writable := by
  have small : params < bound64 := lt_of_query h
  have first : ∀ c : Cursor, ofExcept (onLine operationLine ⟨6, [.word op.keyword]⟩) c =
      .ok (.inl op.keyword, c) := by
    intro c
    cases op <;> rfl
  rw [programLines, query, bind_apply, lineOf_cons (paramsLine_tokens small), ok_bind, bind_apply,
    lineOf_cons tableLine_tokens, ok_bind, ofOperation_eq, numbered, bind_apply, line_cons,
    ok_bind, bind_apply] at h
  change (ofExcept (onLine operationLine ⟨6, [.word op.keyword]⟩) _ >>= _) = _ at h
  rw [first] at h
  change (clausesUpTo (numbered 7 (op.clauses.map ofClause ++ [stop])).length false _ >>= _) = _ at h
  have bound : (numbered 7 (op.clauses.map ofClause ++ [stop])).length = op.clauses.length + 1 := by
    rw [length_numbered, List.length_append, List.length_map, List.length_singleton]
  rw [bound] at h
  obtain ⟨y, hy, -⟩ := bind_eq_ok_iff.mp h
  exact writable_of_clausesUpTo admitted definite key hy (Nat.le_refl _)

/-- A query's listing is assembled only if its program is read. -/
theorem exists_of_assemble {description table : String} {params : Nat} {body : List Directive}
    {u : CompiledUnit} (readable : ∀ d ∈ body, d.Readable)
    (h : assemble (comment description ++ textOf (queryHeader params table ++ body)) = .ok u) :
    ∃ last x, query ⟨programLines params table (numbered 6 body), last⟩ = .ok x := by
  have all : ∀ d ∈ queryHeader params table ++ body, d.Readable := by
    intro d hd
    rcases List.mem_append.mp hd with hh | hb
    · exact readable_queryHeader d hh
    · exact readable d hb
  rw [assemble, readLines_comment_textOf description all] at h
  dsimp only at h
  rw [assembleLines, compiledUnit_queryHeader] at h
  cases read : query ⟨programLines params table (numbered 6 body),
      (lines (comment description ++ textOf (queryHeader params table ++ body)).toList).length⟩ with
  | error e =>
      rw [read] at h
      cases h
  | ok x => exact ⟨_, x, read⟩

/-- An operation that is all clauses that a listing can hold is well formed, and its constants are
read back. -/
theorem wellFormed_of_writable (h : ∀ c ∈ op.clauses, c.Writable)
    (assigns : ∀ assignments access, op = .update assignments access → assignments ≠ []) :
    op.WellFormed ∧ op.Rereads := by
  have operand : ∀ o ∈ op.operands, o.Writable := by
    intro o ho
    obtain ⟨c, hc, hoc⟩ := List.mem_flatMap.mp ho
    exact (h c hc).operands o hoc
  refine ⟨⟨fun o ho => (operand o ho).type, fun o ho => (operand o ho).place, ?_, assigns, ?_⟩,
    fun o ho => (operand o ho).rereads⟩
  · intro i hi
    obtain ⟨c, hc, hic⟩ := List.mem_flatMap.mp hi
    exact (h c hc).columns i hic
  · intro hk
    exact (h _ hk).key rfl

/-- **The listing of an operation is assembled just if a listing can hold it**: its counts fit 64
bits and its constants are read back. -/
theorem exists_assemble_iff {description table : String} {params : Nat}
    (admitted : ∀ o ∈ op.operands, o.type.Admitted) (definite : ∀ o ∈ op.operands, o.Definite)
    (key : ∀ c ∈ op.clauses, c ≠ .seek [])
    (assigns : ∀ assignments access, op = .update assignments access → assignments ≠ []) :
    (∃ u, assemble (comment description ++ textOf (queryHeader params table ++ ofOperation op)) =
      .ok u) ↔ params < bound64 ∧ op.WellFormed ∧ op.Rereads := by
  have mem : ∀ c ∈ op.clauses, ∀ o ∈ c.operands, o ∈ op.operands := fun c hc o ho =>
    List.mem_flatMap.mpr ⟨c, hc, ho⟩
  constructor
  · rintro ⟨u, hu⟩
    obtain ⟨last, x, hx⟩ := exists_of_assemble readable_ofOperation hu
    refine ⟨lt_of_query hx, wellFormed_of_writable ?_ assigns⟩
    exact writable_of_query (fun c hc o ho => admitted o (mem c hc o ho))
      (fun c hc o ho => definite o (mem c hc o ho)) key hx
  · rintro ⟨small, wellFormed, rereads⟩
    exact ⟨_, assemble_execute small wellFormed rereads⟩

end Assembly

end TemporalDB
