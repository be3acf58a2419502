import TemporalDB.Proofs.Assembly.Line

/-!
# Clauses of an operation, written and read

An operation is written as its keyword, its clauses and an end. Each clause is read back from its
line, the clauses from their lines with the numbers of these, and the operation from its keyword
and its clauses.
-/

namespace TemporalDB

open Text Listing

namespace Assembly

variable {c : Clause} {cs : List Clause} {seen : Bool} {op : Operation} {ts : List Token}

def ofClause : Clause → Directive
  | .set column value => ofSet (column, value)
  | .seek key => ⟨"seek", some (key.flatMap ofOperand)⟩
  | .filter f => ofFilter f
  | .project columns => ⟨"project", some (columns.map fun i => .word (showNat i))⟩
  | .asOf value => ⟨"asof", some (ofOperand value)⟩

namespace Clause

def isSeek : Clause → Bool
  | .seek _ => true
  | _ => false

def operands : Clause → List Operand
  | .set _ value => [value]
  | .seek key => key
  | .filter f => [f.operand]
  | .project _ => []
  | .asOf value => [value]

def columns : Clause → List Nat
  | .set column _ => [column]
  | .seek _ => []
  | .filter f => [f.column]
  | .project columns => columns
  | .asOf _ => []

/-- A clause that a listing can hold: its operands can be held, its places fit 64 bits, and a key
has values. -/
structure Writable (c : Clause) : Prop where
  operands : ∀ o ∈ c.operands, o.Writable
  columns : ∀ i ∈ c.columns, i < bound64
  key : c ≠ .seek []

end Clause

/-! ## One clause -/

theorem isWord_symbol {op : Comparator} : IsWord op.symbol := by
  cases op <;> decide

theorem readable_ofOperand {o : Operand} : ∀ t ∈ ofOperand o, t.Readable := by
  cases o with
  | param i type =>
      simp only [ofOperand, List.forall_mem_cons, Token.Readable]
      exact ⟨by decide, isWord_showNat, ScalarType.isWord_text, by simp⟩
  | const type v =>
      simp only [ofOperand, List.forall_mem_cons, Token.Readable]
      exact ⟨by decide, ScalarType.isWord_text, trivial, by simp⟩

theorem ofOperand_ne_nil {o : Operand} : ofOperand o ≠ [] := by
  cases o <;> exact List.cons_ne_nil _ _

/-- The line of a clause says what it says, whatever the texts of its constants are. -/
theorem readable_ofClause : (ofClause c).Readable := by
  cases c with
  | set column value =>
      refine Directive.readable_mk (by decide) ?_
      exact List.forall_mem_cons.mpr ⟨isWord_showNat, readable_ofOperand⟩
  | seek key =>
      refine Directive.readable_mk (by decide) ?_
      intro t ht
      obtain ⟨o, -, ho⟩ := List.mem_flatMap.mp ht
      exact readable_ofOperand t ho
  | filter f =>
      refine Directive.readable_mk (by decide) ?_
      exact List.forall_mem_cons.mpr
        ⟨isWord_showNat, List.forall_mem_cons.mpr ⟨isWord_symbol, readable_ofOperand⟩⟩
  | project columns =>
      refine Directive.readable_mk (by decide) ?_
      intro t ht
      obtain ⟨i, -, rfl⟩ := List.mem_map.mp ht
      exact isWord_showNat
  | asOf value =>
      exact Directive.readable_mk (by decide) readable_ofOperand

/-! What the line of each clause is read as, once its keyword is known. -/

theorem clauseLine_set : clauseLine seen (.word "set" :: ts) =
    (do
      let column ← index
      let value ← operand
      finish
      pure (some (.set column value)) : LineParser (Option Clause)) ts := rfl

theorem clauseLine_seek : clauseLine false (.word "seek" :: ts) =
    (do
      let key ← many operand
      let clause ← if key.isEmpty then refuse .emptySeek else pure (some (.seek key))
      finish
      pure clause : LineParser (Option Clause)) ts := rfl

theorem clauseLine_filter : clauseLine seen (.word "filter" :: ts) =
    (do
      let column ← index
      let op ← comparator
      let value ← operand
      finish
      pure (some (.filter ⟨column, op, value⟩)) : LineParser (Option Clause)) ts := rfl

theorem clauseLine_project : clauseLine seen (.word "project" :: ts) =
    (do
      let columns ← many index
      finish
      pure (some (.project columns)) : LineParser (Option Clause)) ts := rfl

theorem clauseLine_asof : clauseLine seen (.word "asof" :: ts) =
    (do
      let value ← operand
      finish
      pure (some (.asOf value)) : LineParser (Option Clause)) ts := rfl

/-- **A clause is read back from its line**, a key only if none was read before. -/
theorem clauseLine_ofClause (h : c.Writable) (once : c.isSeek = true → seen = false) :
    clauseLine seen (ofClause c).tokens = .ok (some c, []) := by
  cases c with
  | set column value =>
      have hc : Takes index [.word (showNat column)] column :=
        takes_index (h.columns column List.mem_cons_self)
      have hv : Takes operand (ofOperand value) value :=
        takes_operand (h.operands value List.mem_cons_self)
      exact clauseLine_set.trans (hc.bind_line (hv.bind_end rfl))
  | seek key =>
      obtain rfl : seen = false := once rfl
      have hk : many operand (key.flatMap ofOperand) = .ok (key, []) :=
        many_flatMap (fun o ho => takes_operand (h.operands o ho)) fun _ _ => ofOperand_ne_nil
      refine clauseLine_seek.trans ?_
      rw [bind_apply]
      show (many operand (key.flatMap ofOperand) >>= _) = _
      rw [hk]
      cases key with
      | nil =>
          -- a seek without a key is refused, and a writable one has a key
          exact absurd rfl h.key
      | cons o others => rfl
  | filter f =>
      have hc : Takes index [.word (showNat f.column)] f.column :=
        takes_index (h.columns f.column List.mem_cons_self)
      have hv : Takes operand (ofOperand f.operand) f.operand :=
        takes_operand (h.operands f.operand List.mem_cons_self)
      exact clauseLine_filter.trans
        (hc.bind_line (takes_comparator.bind_line (hv.bind_end rfl)))
  | project columns =>
      have hp : many index (columns.flatMap fun i => [.word (showNat i)]) = .ok (columns, []) :=
        many_flatMap (fun i hi => takes_index (h.columns i hi)) fun _ _ => List.cons_ne_nil _ _
      refine clauseLine_project.trans ?_
      rw [← List.map_eq_flatMap] at hp
      rw [bind_apply]
      show (many index (columns.map fun i => .word (showNat i)) >>= _) = _
      rw [hp]
      rfl
  | asOf value =>
      have hv : Takes operand (ofOperand value) value :=
        takes_operand (h.operands value List.mem_cons_self)
      exact clauseLine_asof.trans (hv.bind_end rfl)

/-! ## The clauses of an operation -/

def stop : Directive := ⟨"end", none⟩

def placed (number : Nat) : List Clause → List (Clause × Nat)
  | [] => []
  | c :: cs => (c, number) :: placed (number + 1) cs

theorem map_placed {number : Nat} : (placed number cs).map (·.1) = cs := by
  induction cs generalizing number with
  | nil => rfl
  | cons c cs ih => rw [placed, List.map_cons, ih]

theorem clausesUpTo_cons {bound number last : Nat} {rest : List Line}
    (h : clauseLine seen ts = .ok (some c, [])) :
    clausesUpTo (bound + 1) seen ⟨⟨number, ts⟩ :: rest, last⟩ =
      (clausesUpTo bound (seen || c.isSeek) >>= fun others => pure ((c, number) :: others))
        ⟨rest, last⟩ := by
  have hl : onLine (clauseLine seen) ⟨number, ts⟩ = .ok (some c) := by
    simp only [onLine, h]
  rw [clausesUpTo, bind_apply]
  show (ofExcept (onLine (clauseLine seen) ⟨number, ts⟩) ⟨rest, last⟩ >>= _) = _
  rw [hl]
  cases c <;> rfl

/-- **Clauses are read back up to the end of an operation**, if at most one of them gives a key,
counted together with one read before. -/
theorem clausesUpTo_numbered {bound number last : Nat} (h : ∀ c ∈ cs, c.Writable)
    (once : cs.countP Clause.isSeek + seen.toNat ≤ 1) (enough : cs.length ≤ bound) :
    clausesUpTo (bound + 1) seen ⟨numbered number (cs.map ofClause ++ [stop]), last⟩ =
      .ok (placed number cs, ⟨[], last⟩) := by
  induction cs generalizing bound number seen with
  | nil => rfl
  | cons c cs ih =>
      rw [List.forall_mem_cons] at h
      rw [List.countP_cons] at once
      obtain ⟨bound, rfl⟩ := Nat.exists_eq_add_of_le' (Nat.lt_of_lt_of_le (Nat.succ_pos _) enough)
      have first : clauseLine seen (ofClause c).tokens = .ok (some c, []) := by
        apply clauseLine_ofClause h.1
        intro hs
        rw [if_pos hs] at once
        cases seen with
        | false => rfl
        | true =>
            rw [Bool.toNat_true] at once
            omega
      -- a seek that was counted here is from now on one of those read before
      have more : cs.countP Clause.isSeek + (seen || c.isSeek).toNat ≤ 1 := by
        cases hs : c.isSeek with
        | false => simpa [hs] using once
        | true =>
            rw [hs, if_pos rfl] at once
            rw [Bool.or_true, Bool.toNat_true]
            omega
      rw [List.map_cons, List.cons_append, numbered, clausesUpTo_cons first]
      show (clausesUpTo (bound + 1) _ _ >>= _) = _
      rw [ih h.2 more (Nat.le_of_succ_le_succ enough)]
      rfl

end Assembly

end TemporalDB
