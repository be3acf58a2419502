import TemporalDB.Assembly
import TemporalDB.Listing.Rendering
import TemporalDB.Proofs.Outcome
import TemporalDB.Proofs.ScalarType

/-!
# Parsers on the lines of a listing

A parser takes tokens if it takes just these from the front of any line. What is written of a
place, a type, a comparison or an operand is taken by the parser of that kind, and gives it back.
-/

namespace TemporalDB

open Text Listing

def Operand.type : Operand → ScalarType
  | .param _ type => type
  | .const type _ => type

def Operand.place? : Operand → Option Nat
  | .param i _ => some i
  | .const .. => none

/-- Whether a constant is read back from the text that results show of it. -/
def Operand.Rereads : Operand → Prop
  | .param .. => True
  | .const type v => type.readValue v.display = .ok v

instance {o : Operand} : Decidable o.Rereads :=
  match o with
  | .param .. => isTrue trivial
  | .const type v => inferInstanceAs (Decidable (type.readValue v.display = .ok v))

/-- An operand that a listing can hold: a declaration can give its type, the place of a parameter
fits 64 bits, and a constant is read back from its text. -/
structure Operand.Writable (o : Operand) : Prop where
  type : o.type.Admitted
  place : ∀ i ∈ o.place?, i < bound64
  rereads : o.Rereads

namespace Assembly

variable {α β : Type} {p : LineParser α} {q : α → LineParser β} {front back : List Token} {a : α}
  {b : β} {w s expected : String} {n number last : Nat} {ts rest : List Token} {l : Line}
  {ls : List Line}

/-- A parser takes just these tokens from the front of a line, whatever comes after them. -/
def Takes (p : LineParser α) (front : List Token) (a : α) : Prop :=
  ∀ rest, p (front ++ rest) = .ok (a, rest)

theorem bind_apply {σ ε : Type} {p : StateT σ (Except ε) α} {q : α → StateT σ (Except ε) β}
    {state : σ} : (p >>= q) state = p state >>= fun x => q x.1 x.2 := rfl

namespace Takes

theorem pure : Takes (Pure.pure a : LineParser α) [] a := fun _ => rfl

theorem bind (hp : Takes p front a) (hq : Takes (q a) back b) :
    Takes (p >>= q) (front ++ back) b := by
  intro rest
  rw [bind_apply, List.append_assoc, hp]
  exact hq rest

theorem map {f : α → β} (hp : Takes p front a) (hb : f a = b) :
    Takes (p >>= fun a => Pure.pure (f a)) front b := by
  subst hb
  rw [← List.append_nil front]
  exact hp.bind pure

/-- What follows a parser goes on with the rest of the line. -/
theorem bind_line (hp : Takes p front a) (hq : q a back = .ok (b, [])) :
    (p >>= q) (front ++ back) = .ok (b, []) := by
  rw [bind_apply, hp]
  exact hq

/-- A parser that takes the whole line is followed by what reads nothing. -/
theorem bind_end (hp : Takes p front a) (hq : q a [] = .ok (b, [])) :
    (p >>= q) front = .ok (b, []) := by
  rw [← List.append_nil front]
  exact hp.bind_line hq

/-- What follows a parser that took its tokens is what the rest of the line was read by. -/
theorem of_bind {x : β × List Token} (hp : Takes p front a)
    (h : (p >>= q) (front ++ rest) = .ok x) : q a rest = .ok x := by
  rw [bind_apply, hp] at h
  exact h

end Takes

/-- A parser that goes on with another gives something only if both do. -/
theorem exists_of_bind {x : β × List Token} (h : (p >>= q) ts = .ok x) :
    ∃ a, p ts = .ok a ∧ q a.1 a.2 = .ok x := bind_eq_ok_iff.mp h

/-! ## Tokens -/

theorem takes_word : Takes word [.word w] w := fun _ => rfl

theorem takes_string : Takes string [.quoted s] s := fun _ => rfl

theorem takes_keyword : Takes (keyword w) [.word w] ⟨⟩ := by
  rw [keyword, ← List.append_nil [_]]
  refine takes_word.bind ?_
  rw [if_pos rfl]
  exact Takes.pure

theorem takes_index (h : n < bound64) : Takes index [.word (showNat n)] n := by
  rw [index, ← List.append_nil [_]]
  refine takes_word.bind ?_
  rw [readCount_showNat h]
  exact Takes.pure

theorem takes_scalarType {type : ScalarType} (h : type.Admitted) :
    Takes scalarType [.word type.text] type := by
  rw [scalarType, ← List.append_nil [_]]
  refine takes_word.bind ?_
  rw [ScalarType.read_text h]
  exact Takes.pure

/-- A type that was read is one that declarations can give. -/
theorem admitted_of_scalarType {x : ScalarType × List Token} (h : scalarType ts = .ok x) :
    x.1.Admitted := by
  obtain ⟨⟨w, ts⟩, -, h⟩ := exists_of_bind h
  cases read : ScalarType.read w with
  | error e =>
      simp only [read] at h
      cases h
  | ok type =>
      simp only [read] at h
      cases h
      exact ScalarType.admitted_of_read read

theorem takes_comparator {op : Comparator} : Takes comparator [.word op.symbol] op := by
  rw [comparator, ← List.append_nil [_]]
  refine takes_word.bind ?_
  cases op <;> exact Takes.pure

theorem takes_operand {o : Operand} (h : o.Writable) : Takes operand (ofOperand o) o := by
  unfold operand
  cases o with
  | param i type =>
      refine @Takes.bind _ _ _ _ _ [.word (showNat i), .word type.text] _ _ takes_word ?_
      rw [if_pos rfl]
      exact (takes_index (h.place i rfl)).bind ((takes_scalarType h.type).map rfl)
  | const type v =>
      refine @Takes.bind _ _ _ _ _ [.word type.text, .quoted v.display] _ _ takes_word ?_
      have admitted : type.Admitted := h.type
      have reread : type.readValue v.display = .ok v := h.rereads
      rw [if_neg (by decide), if_pos rfl]
      refine (takes_scalarType admitted).bind ?_
      rw [← List.append_nil [_]]
      refine takes_string.bind ?_
      rw [reread]
      exact Takes.pure

/-! ## Items up to the end of a line -/

theorem manyUpTo_succ {item : LineParser α} {bound : Nat} : manyUpTo item (bound + 1) ts =
    if ts.isEmpty then .ok ([], ts)
    else (item >>= fun a => manyUpTo item bound >>= fun as => Pure.pure (a :: as)) ts := by
  rw [manyUpTo]
  show (if ts.isEmpty then (Pure.pure [] : LineParser (List α)) else _) ts = _
  split <;> rfl

theorem manyUpTo_flatMap {item : LineParser α} {text : α → List Token} {as : List α} {bound : Nat}
    (takes : ∀ a ∈ as, Takes item (text a) a) (nonempty : ∀ a ∈ as, text a ≠ [])
    (enough : as.length ≤ bound) : manyUpTo item bound (as.flatMap text) = .ok (as, []) := by
  induction as generalizing bound with
  | nil => cases bound <;> rfl
  | cons a as ih =>
      obtain ⟨bound, rfl⟩ := Nat.exists_eq_add_of_le' (Nat.lt_of_lt_of_le (Nat.succ_pos _) enough)
      rw [List.forall_mem_cons] at takes nonempty
      have others := ih takes.2 nonempty.2 (Nat.le_of_succ_le_succ enough)
      have more : ((a :: as).flatMap text).isEmpty = false := by
        rw [List.isEmpty_eq_false_iff, List.flatMap_cons]
        exact fun he => nonempty.1 (List.append_eq_nil_iff.mp he).1
      rw [manyUpTo_succ, if_neg (by rw [more]; exact Bool.false_ne_true), List.flatMap_cons,
        bind_apply, takes.1]
      change (manyUpTo item bound _ >>= fun x => Except.ok (a :: x.1, x.2)) = _
      rw [others]
      rfl

theorem length_le_flatMap {text : α → List β} {as : List α}
    (nonempty : ∀ a ∈ as, text a ≠ []) : as.length ≤ (as.flatMap text).length := by
  induction as with
  | nil => exact Nat.le_refl _
  | cons a as ih =>
      rw [List.forall_mem_cons] at nonempty
      have first : 1 ≤ (text a).length := List.length_pos_of_ne_nil nonempty.1
      have others := ih nonempty.2
      rw [List.flatMap_cons, List.length_append, List.length_cons]
      omega

/-- Items are taken up to the end of the line, if each of them stands for some tokens. -/
theorem many_flatMap {item : LineParser α} {text : α → List Token} {as : List α}
    (takes : ∀ a ∈ as, Takes item (text a) a) (nonempty : ∀ a ∈ as, text a ≠ []) :
    many item (as.flatMap text) = .ok (as, []) :=
  manyUpTo_flatMap takes nonempty (length_le_flatMap nonempty)

/-! ## Lines -/

theorem line_cons : line expected ⟨l :: ls, last⟩ = .ok (l, ⟨ls, last⟩) := rfl

theorem lineOf_cons {left : List Token} (h : p ts = .ok (a, left)) :
    lineOf expected p ⟨⟨number, ts⟩ :: ls, last⟩ = .ok (a, ⟨ls, last⟩) := by
  have hl : onLine p ⟨number, ts⟩ = .ok a := by simp only [onLine, h]
  rw [lineOf, bind_apply]
  show ofExcept (onLine p ⟨number, ts⟩) ⟨ls, last⟩ = _
  rw [hl]
  rfl

theorem eq_of_ofExcept {r : Except AssemblyError α} {c : Cursor} {x : α × Cursor}
    (h : ofExcept r c = .ok x) : r = .ok x.1 ∧ x.2 = c := by
  cases r with
  | error e => cases h
  | ok a =>
      cases h
      exact ⟨rfl, rfl⟩

theorem exists_of_onLine (h : onLine p l = .ok a) : ∃ rest, p l.tokens = .ok (a, rest) := by
  unfold onLine at h
  cases taken : p l.tokens with
  | error fault =>
      simp only [taken] at h
      cases h
  | ok y =>
      simp only [taken] at h
      cases h
      exact ⟨y.2, rfl⟩

theorem length_of_line {c : Cursor} {x : Line × Cursor} (h : line expected c = .ok x) :
    c.rest.length = x.2.rest.length + 1 := by
  obtain ⟨_ | ⟨l, ls⟩, last⟩ := c
  · cases h
  · cases h
    rfl

theorem length_of_readLinesFrom {raws : List (List Char)} (h : readLinesFrom number raws = .ok ls) :
    ls.length ≤ raws.length := by
  induction raws generalizing number ls with
  | nil =>
      cases h
      exact Nat.le_refl 0
  | cons raw raws ih =>
      unfold readLinesFrom at h
      split_ifs at h
      · split at h
        · cases h
        · obtain ⟨others, hothers, h⟩ := bind_eq_ok_iff.mp h
          cases h
          exact Nat.succ_le_succ (ih hothers)
      · exact Nat.le_succ_of_le (ih h)

/-- A line is taken only if it is there and its tokens are taken. -/
theorem exists_of_lineOf {c : Cursor} {x : α × Cursor} (h : lineOf expected p c = .ok x) :
    ∃ l y, c.rest = l :: x.2.rest ∧ p l.tokens = .ok y ∧ y.1 = x.1 := by
  obtain ⟨_ | ⟨l, ls⟩, last⟩ := c
  · cases h
  change ofExcept (onLine p l) ⟨ls, last⟩ = .ok x at h
  obtain ⟨given, here⟩ := eq_of_ofExcept h
  obtain ⟨rest, taken⟩ := exists_of_onLine given
  exact ⟨l, (x.1, rest), by rw [here], taken, rfl⟩

end Assembly

end TemporalDB
