import TemporalDB.Proofs.Assembly.Clause
import TemporalDB.Proofs.Assembly.Relation
import TemporalDB.Proofs.Encoding.CompiledUnit

/-!
# The counts of assembled queries

Every count of a listing is read within 64 bits, so the unit of a query is decoded from its artifact
whatever its listing is.
-/

namespace TemporalDB.Assembly

open Text Listing

variable {α : Type} {c : Clause} {cs : List Clause} {ts : List Token} {cursor : Cursor}
  {seen : Bool} {bound number : Nat} {op : Operation}

/-! ## One line -/

theorem lt_of_indexed {x : Nat × List Token} (h : index ts = .ok x) : x.1 < bound64 := by
  obtain ⟨⟨w, ts⟩, -, h⟩ := exists_of_bind h
  cases read : readCount bound64 w.toList with
  | none =>
      simp only [read] at h
      cases h
  | some n =>
      simp only [read] at h
      cases h
      exact lt_of_readCount read

theorem fits_of_operand {x : Operand × List Token} (h : operand ts = .ok x) : x.1.Fits := by
  obtain ⟨⟨w, ts⟩, -, h⟩ := exists_of_bind h
  dsimp only at h
  split_ifs at h
  · obtain ⟨i, hi, h⟩ := exists_of_bind h
    obtain ⟨type, -, h⟩ := exists_of_bind h
    cases h
    exact lt_of_indexed hi
  · obtain ⟨type, -, h⟩ := exists_of_bind h
    obtain ⟨text, -, h⟩ := exists_of_bind h
    cases read : type.1.readValue text.1 with
    | error e =>
        simp only [read] at h
        cases h
    | ok v =>
        simp only [read] at h
        cases h
        trivial
  · cases h

structure Clause.Fits (c : Clause) : Prop where
  operands : ∀ o ∈ c.operands, o.Fits
  columns : ∀ i ∈ c.columns, i < bound64

theorem eq_of_finished {clause : Option Clause} {x : Option Clause × List Token}
    (h : (pure clause >>= fun clause => finish >>= fun _ => pure clause :
      LineParser (Option Clause)) ts = .ok x) : x.1 = clause := by
  obtain ⟨_, given, h⟩ := exists_of_bind h
  obtain ⟨_, -, h⟩ := exists_of_bind h
  cases given
  cases h
  rfl

/-- **A clause that is read fits.** -/
theorem fits_of_clauseLine {x : Option Clause × List Token} (h : clauseLine seen ts = .ok x) :
    ∀ c ∈ x.1, c.Fits := by
  obtain ⟨⟨w, ts⟩, -, h⟩ := exists_of_bind h
  dsimp only at h
  -- the keywords as they are tried: end, set, a second seek, seek, filter, project, asof, any other
  split_ifs at h
  · rw [eq_of_finished h]
    rintro _ ⟨⟩
  · obtain ⟨column, hcolumn, h⟩ := exists_of_bind h
    obtain ⟨value, hvalue, h⟩ := exists_of_bind h
    rw [eq_of_finished h]
    rintro _ ⟨⟩
    exact ⟨List.forall_mem_singleton.mpr (fits_of_operand hvalue),
      List.forall_mem_singleton.mpr (lt_of_indexed hcolumn)⟩
  · cases h
  · obtain ⟨key, hkey, h⟩ := exists_of_bind h
    split_ifs at h
    · cases h
    · rw [eq_of_finished h]
      rintro _ ⟨⟩
      refine ⟨?_, List.forall_mem_nil _⟩
      intro o ho
      obtain ⟨ts, rest, taken⟩ := exists_of_manyUpTo hkey o ho
      exact fits_of_operand taken
  · obtain ⟨column, hcolumn, h⟩ := exists_of_bind h
    obtain ⟨op, -, h⟩ := exists_of_bind h
    obtain ⟨value, hvalue, h⟩ := exists_of_bind h
    rw [eq_of_finished h]
    rintro _ ⟨⟩
    exact ⟨List.forall_mem_singleton.mpr (fits_of_operand hvalue),
      List.forall_mem_singleton.mpr (lt_of_indexed hcolumn)⟩
  · obtain ⟨columns, hcolumns, h⟩ := exists_of_bind h
    rw [eq_of_finished h]
    rintro _ ⟨⟩
    refine ⟨List.forall_mem_nil _, ?_⟩
    intro i hi
    obtain ⟨ts, rest, taken⟩ := exists_of_manyUpTo hcolumns i hi
    exact lt_of_indexed taken
  · obtain ⟨value, hvalue, h⟩ := exists_of_bind h
    rw [eq_of_finished h]
    rintro _ ⟨⟩
    exact ⟨List.forall_mem_singleton.mpr (fits_of_operand hvalue), List.forall_mem_nil _⟩
  · cases h

/-! ## Operations -/

theorem fits_of_clausesUpTo {x : List (Clause × Nat) × Cursor}
    (h : clausesUpTo bound seen cursor = .ok x) : ∀ y ∈ x.1, y.1.Fits := by
  induction bound generalizing seen cursor x with
  | zero =>
      obtain ⟨_, -, h⟩ := bind_eq_ok_iff.mp h
      cases h
      exact List.forall_mem_nil _
  | succ bound ih =>
      rw [clausesUpTo] at h
      obtain ⟨⟨l, c⟩, -, h⟩ := bind_eq_ok_iff.mp h
      obtain ⟨⟨read, c⟩, hread, h⟩ := bind_eq_ok_iff.mp h
      cases read with
      | none =>
          cases h
          exact List.forall_mem_nil _
      | some clause =>
          obtain ⟨others, hothers, h⟩ := bind_eq_ok_iff.mp h
          cases h
          rw [List.forall_mem_cons]
          obtain ⟨rest, taken⟩ := exists_of_onLine (eq_of_ofExcept hread).1
          exact ⟨fits_of_clauseLine taken clause rfl, ih hothers⟩

/-- The parts of an operation fit if the clauses that they are taken from do. -/
theorem setsFit_setsOf (fits : ∀ c ∈ cs, c.Fits) : SetsFit (setsOf cs) := by
  intro s hs
  obtain ⟨c, hc, hs⟩ := List.mem_filterMap.mp hs
  cases c with
  | set column value =>
      cases hs
      exact ⟨(fits _ hc).columns column List.mem_cons_self,
        (fits _ hc).operands value List.mem_cons_self⟩
  | _ => cases hs

theorem fits_accessOf (fits : ∀ c ∈ cs, c.Fits) : (accessOf cs).Fits := by
  constructor
  · intro key hkey o ho
    obtain ⟨c, hc, hkey⟩ := List.exists_of_findSome?_eq_some hkey
    cases c with
    | seek key' =>
        cases hkey
        exact (fits _ hc).operands o ho
    | _ => cases hkey
  · intro f hf
    obtain ⟨c, hc, hf⟩ := List.mem_filterMap.mp hf
    cases c with
    | filter f' =>
        cases hf
        exact ⟨(fits _ hc).columns _ List.mem_cons_self, (fits _ hc).operands _ List.mem_cons_self⟩
    | _ => cases hf

theorem lt_of_projectionOf (fits : ∀ c ∈ cs, c.Fits) {projection : List Nat}
    (h : projectionOf cs = some projection) : ∀ i ∈ projection, i < bound64 := by
  obtain ⟨c, hc, h⟩ := List.exists_of_findSome?_eq_some h
  cases c with
  | project columns =>
      cases h
      exact (fits _ (List.mem_reverse.mp hc)).columns
  | _ => cases h

theorem fits_asOfOf (fits : ∀ c ∈ cs, c.Fits) : ∀ o ∈ asOfOf cs, o.Fits := by
  intro o ho
  obtain ⟨c, hc, ho⟩ := List.exists_of_findSome?_eq_some ho
  cases c with
  | asOf value =>
      cases ho
      exact (fits _ (List.mem_reverse.mp hc)).operands o List.mem_cons_self
  | _ => cases ho

/-- **An operation fits if its clauses do.** -/
theorem fits_of_operationOf {w : String} {clauses : List (Clause × Nat)}
    (fits : ∀ y ∈ clauses, y.1.Fits) (h : operationOf w number clauses = .ok op) : op.Fits := by
  have each : ∀ c ∈ clauses.map (·.1), c.Fits := List.forall_mem_map.mpr fits
  unfold operationOf at h
  split at h
  · cases h
  · split at h
    · cases h
    · dsimp only at h
      split_ifs at h
      · cases h
        exact setsFit_setsOf each
      · cases h
        exact ⟨setsFit_setsOf each, fits_accessOf each⟩
      · cases h
        exact fits_accessOf each
      · split at h
        · cases h
        · next projection hprojection =>
            cases h
            exact ⟨lt_of_projectionOf each hprojection, fits_asOfOf each, fits_accessOf each⟩

/-! ## Units -/

theorem fits_of_query {x : QueryProgram × Cursor} (h : query cursor = .ok x) :
    (Program.query x.1).Fits := by
  obtain ⟨params, hparams, h⟩ := bind_eq_ok_iff.mp h
  obtain ⟨table, -, h⟩ := bind_eq_ok_iff.mp h
  obtain ⟨⟨l, c⟩, -, h⟩ := bind_eq_ok_iff.mp h
  obtain ⟨⟨operation, c⟩, -, h⟩ := bind_eq_ok_iff.mp h
  have small : params.1 < bound64 := by
    obtain ⟨l, y, -, taken, same⟩ := exists_of_lineOf hparams
    obtain ⟨_, -, taken⟩ := exists_of_bind taken
    obtain ⟨n, hn, taken⟩ := exists_of_bind taken
    obtain ⟨_, -, taken⟩ := exists_of_bind taken
    cases taken
    have small := lt_of_indexed hn
    exact same.symm.trans_lt small
  cases operation with
  | inr text =>
      cases h
      exact ⟨small, trivial⟩
  | inl operation =>
      obtain ⟨clauses, hclauses, h⟩ := bind_eq_ok_iff.mp h
      obtain ⟨op, hop, h⟩ := bind_eq_ok_iff.mp h
      cases h
      exact ⟨small, fits_of_operationOf (fits_of_clausesUpTo hclauses) (eq_of_ofExcept hop).1⟩

/-- A definition that is read below the header of a listing has no more columns than lines. -/
theorem fits_of_definition {x : Schema × Cursor} (h : definition cursor = .ok x)
    (size : cursor.rest.length ≤ bound64) : x.1.Fits := by
  obtain ⟨y, hy, h⟩ := bind_eq_ok_iff.mp h
  cases h
  intro r hr i hi
  obtain ⟨column, found, -⟩ := (writable_of_relationsUpTo hy r hr).key i hi
  have inside := (List.getElem?_eq_some_iff.mp found).1
  have few := length_of_relationsUpTo hy r hr
  omega

/-- **A unit that is assembled fits, and is of the version that is read**, so it is decoded from its
artifact. The listing of a definition is shorter than 64 bits can count. -/
theorem fits_of_assemble {listing : String} {u : CompiledUnit} (h : assemble listing = .ok u) :
    u.abi = abiVersion ∧ (listing.length < bound64 ∨ (∃ q, u.program = .query q) →
      u.program.Fits) := by
  obtain ⟨c, x, read, rfl, few⟩ := exists_compiledUnit_of_assemble h
  obtain ⟨version, below, shorter, ⟨y, hy, program⟩ | ⟨y, hy, program⟩⟩ :=
    cases_of_compiledUnit read
  · refine ⟨version, ?_⟩
    rintro (size | ⟨q, query⟩)
    · rw [program]
      exact fits_of_definition hy (by omega)
    · cases program.symm.trans query
  · refine ⟨version, ?_⟩
    intro _
    rw [program]
    exact fits_of_query hy

end TemporalDB.Assembly
