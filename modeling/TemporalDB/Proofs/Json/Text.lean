import TemporalDB.Json.Reader
import TemporalDB.Proofs.Json.Token

/-!
# JSON values, written and read

A value of which all numbers are integers of 64 bits and all of which denotes something is read back
from its text, whatever its strings are and however deep it is nested.
-/

namespace TemporalDB.Json

open Text

/-- A value whose numbers are integers of 64 bits, in which everything denotes something and in which
containers are nested at most to a depth. -/
inductive Plain : Nat → Json → Prop where
  | null {d : Nat} : Plain d null
  | bool {d : Nat} (b : Bool) : Plain d (bool b)
  | integer {d : Nat} {n : Int} (h : InRange n) : Plain d (integer n)
  | string {d : Nat} (s : String) : Plain d (string s)
  | array {d : Nat} {items : List Json} (h : ∀ j ∈ items, Plain d j) : Plain (d + 1) (array items)
  | object {d : Nat} {members : List (String × Json)} (h : ∀ m ∈ members, Plain d m.2) :
    Plain (d + 1) (object members)

variable {d depth : Nat} {j k : Json} {items : List Json} {members : List (String × Json)}
  {r r' : Reading} {stack : List Frame} {c : Char} {s rest : List Char} {t : Token}

theorem Plain.mono {d' : Nat} (h : Plain d j) (le : d ≤ d') : Plain d' j := by
  induction h generalizing d' with
  | null => exact .null
  | bool b => exact .bool b
  | integer h => exact .integer h
  | string s => exact .string s
  | array _ ih =>
      obtain ⟨d', rfl⟩ := Nat.exists_eq_add_of_le' (Nat.lt_of_lt_of_le (Nat.succ_pos _) le)
      exact .array fun j hj => ih j hj (Nat.le_of_succ_le_succ le)
  | object _ ih =>
      obtain ⟨d', rfl⟩ := Nat.exists_eq_add_of_le' (Nat.lt_of_lt_of_le (Nat.succ_pos _) le)
      exact .object fun m hm => ih m hm (Nat.le_of_succ_le_succ le)

theorem denotesAll_iff : denotesAll items = true ↔ ∀ j ∈ items, j.denotes = true := by
  induction items with
  | nil => simp [denotesAll]
  | cons j items ih => rw [denotesAll, Bool.and_eq_true, ih, List.forall_mem_cons]

theorem denotesMembers_iff : denotesMembers members = true ↔ ∀ m ∈ members, m.2.denotes = true := by
  induction members with
  | nil => simp [denotesMembers]
  | cons m members ih => rw [denotesMembers, Bool.and_eq_true, ih, List.forall_mem_cons]

theorem depthAll_le_iff : depthAll items ≤ d ↔ ∀ j ∈ items, j.depth ≤ d := by
  induction items with
  | nil => simp [depthAll]
  | cons j items ih => rw [depthAll, Nat.max_le, ih, List.forall_mem_cons]

theorem depthMembers_le_iff : depthMembers members ≤ d ↔ ∀ m ∈ members, m.2.depth ≤ d := by
  induction members with
  | nil => simp [depthMembers]
  | cons m members ih => rw [depthMembers, Nat.max_le, ih, List.forall_mem_cons]

theorem Plain.denotes (h : Plain d j) : j.denotes = true := by
  induction h with
  | null | bool | integer | string => simp [Json.denotes]
  | array _ ih =>
      rw [Json.denotes, denotesAll_iff]
      exact ih
  | object _ ih =>
      rw [Json.denotes, denotesMembers_iff]
      exact ih

theorem Plain.depth_le (h : Plain d j) : j.depth ≤ d := by
  induction h with
  | null | bool | integer | string => simp [Json.depth]
  | array _ ih =>
      rw [Json.depth]
      exact Nat.succ_le_succ (depthAll_le_iff.mpr ih)
  | object _ ih =>
      rw [Json.depth]
      exact Nat.succ_le_succ (depthMembers_le_iff.mpr ih)

/-! ## Reading to the end of a text -/

/-- A text takes a reading to its end, where it has given a value. -/
inductive Completes : Reading → List Char → Json → Prop where
  | done {j : Json} : Completes (.done [] j) [] j
  | gap {r : Reading} {c : Char} {s : List Char} {j : Json} (blank : isGap c = true)
    (h : Completes r s j) : Completes r (c :: s) j
  | token {r r' : Reading} {c : Char} {s rest : List Char} {t : Token} {j : Json}
    (solid : isGap c = false) (scanned : scan c s = some (t, rest)) (le : rest.length ≤ s.length)
    (step : r.step t = some r') (h : Completes r' rest j) : Completes r (c :: s) j

/-- What completes a reading are the tokens of its text, however many could be taken. -/
theorem Completes.exists_tokens (h : Completes r s j) {bound : Nat} (enough : s.length ≤ bound) :
    ∃ ts, tokensUpTo bound s = some ts ∧ ts.foldlM Reading.step r = some (.done [] j) := by
  -- The bound counts characters, and a token takes at least one of them as a blank does.
  induction h generalizing bound with
  | done =>
      refine ⟨[], ?_, rfl⟩
      cases bound <;> rfl
  | gap blank _ ih =>
      obtain ⟨bound, rfl⟩ := Nat.exists_eq_add_of_le' (Nat.lt_of_lt_of_le (Nat.succ_pos _) enough)
      obtain ⟨ts, hts, reads⟩ := ih (Nat.le_of_succ_le_succ enough)
      refine ⟨ts, ?_, reads⟩
      rw [tokensUpTo, if_pos blank, hts]
  | @token _ _ _ _ _ t _ solid scanned le step _ ih =>
      obtain ⟨bound, rfl⟩ := Nat.exists_eq_add_of_le' (Nat.lt_of_lt_of_le (Nat.succ_pos _) enough)
      obtain ⟨ts, hts, reads⟩ := ih (Nat.le_trans le (Nat.le_of_succ_le_succ enough))
      refine ⟨t :: ts, ?_, ?_⟩
      · rw [tokensUpTo, if_neg (by rw [solid]; exact Bool.false_ne_true), scanned]
        show (tokensUpTo bound _).bind _ = _
        rw [hts]
        rfl
      · rw [List.foldlM_cons, step]
        exact reads

/-- A text that completes a reading from its start is read as the value. -/
theorem Completes.parse (h : Completes (.value []) s j) : parse (String.ofList s) = some j := by
  obtain ⟨ts, hts, reads⟩ := h.exists_tokens (Nat.le_refl _)
  rw [Json.parse, String.toList_ofList, tokens, hts]
  show (ts.foldlM Reading.step (.value [])).bind _ = _
  rw [reads]
  rfl

theorem Completes.gaps {gaps : List Char} (blank : ∀ c ∈ gaps, isGap c = true)
    (h : Completes r s j) : Completes r (gaps ++ s) j := by
  induction gaps with
  | nil => exact h
  | cons c gaps ih =>
      rw [List.forall_mem_cons] at blank
      exact .gap blank.1 (ih blank.2)

theorem Completes.newLine (h : Completes r s j) : Completes r (newLine depth ++ s) j := by
  refine .gap rfl (h.gaps ?_)
  intro c hc
  rw [(List.mem_replicate.mp hc).2]
  rfl

theorem Completes.firstItem (h : Completes (.value (.array [] :: stack)) s j) :
    Completes (.firstItem stack) s j := by
  generalize hr : Reading.value (.array [] :: stack) = r at h
  induction h with
  | done => cases hr
  | gap blank _ ih => exact .gap blank (ih hr)
  | @token _ _ _ _ _ t _ solid scanned le step h _ =>
      subst hr
      refine .token solid scanned le ?_ h
      -- only the end of an array is read there in another way, and no value begins with it
      cases t <;> first | exact step | cases step

theorem Completes.firstName (h : Completes (.nextName [] stack) s j) :
    Completes (.firstName stack) s j := by
  generalize hr : Reading.nextName [] stack = r at h
  induction h with
  | done => cases hr
  | gap blank _ ih => exact .gap blank (ih hr)
  | @token _ _ _ _ _ t _ solid scanned le step h _ =>
      subst hr
      refine .token solid scanned le ?_ h
      rcases t with _ | _ | _ | _ | _ | _ | (_ | _ | _ | _ | _ | _) <;>
        first | exact step | cases step

/-! ## What is written -/

/-- A value is read from its text wherever a value may come. -/
def Written (j : Json) : Prop := ∀ depth stack rest k, EndsValue rest →
  Completes (.done stack j) rest k → Completes (.value stack) (write depth j ++ rest) k

/-- What comes after an item of an array may follow a value. -/
theorem endsValue_writeItems :
    EndsValue (writeItems (depth + 1) items ++ (newLine depth ++ ']' :: rest)) := by
  cases items with
  | nil => exact endsValue_newLine
  | cons _ _ =>
      rw [writeItems]
      exact endsValue_comma

/-- The items of an array after the first, and the end of the array. -/
theorem completes_writeItems {before : List Json} (written : ∀ j ∈ items, Written j)
    (h : Completes (.done stack (array ((j :: before).reverse ++ items))) rest k) :
    Completes (.done (.array before :: stack) j)
      (writeItems (depth + 1) items ++ (newLine depth ++ ']' :: rest)) k := by
  induction items generalizing j before with
  | nil =>
      rw [List.append_nil] at h
      exact Completes.newLine (.token rfl rfl (Nat.le_refl _) rfl h)
  | cons i items ih =>
      rw [List.forall_mem_cons] at written
      -- the last item read goes in front of those before it, as a frame keeps them
      have others := @ih i (j :: before) written.2 (by simpa using h)
      rw [writeItems, List.append_assoc, List.append_assoc, List.append_assoc]
      refine .token rfl rfl (Nat.le_refl _) rfl (Completes.newLine ?_)
      exact written.1 _ _ _ _ endsValue_writeItems others

theorem completes_writeString {name : String}
    (step : r.step (.scalar (.string (some name))) = some r') (h : Completes r' rest k) :
    Completes r (writeString name ++ rest) k := by
  have text : writeString name ++ rest = '"' :: (name.toList.flatMap escape ++ '"' :: rest) := by
    simp [writeString]
  rw [text]
  refine .token rfl (scan_writeString name) ?_ step h
  rw [List.length_append, List.length_cons]
  omega

theorem completes_writeMember {before : List (Option String × Json)} {m : String × Json}
    (written : Written m.2) (ends : EndsValue rest)
    (h : Completes (.done (.object before (some m.1) :: stack) m.2) rest k) :
    Completes (.nextName before stack) (writeMember depth m ++ rest) k := by
  obtain ⟨name, j⟩ := m
  rw [writeMember, List.append_assoc, List.append_assoc]
  refine completes_writeString rfl ?_
  exact .token rfl rfl (Nat.le_refl _) rfl (.gap rfl (written _ _ _ _ ends h))

/-- What comes after a member of an object may follow a value. -/
theorem endsValue_writeMembers :
    EndsValue (writeMembers (depth + 1) members ++ (newLine depth ++ '}' :: rest)) := by
  cases members with
  | nil => exact endsValue_newLine
  | cons _ _ =>
      rw [writeMembers]
      exact endsValue_comma

/-- The members of an object after the first, and the end of the object. -/
theorem completes_writeMembers {before : List (Option String × Json)} {name : Option String}
    (written : ∀ m ∈ members, Written m.2)
    (h : Completes (.done stack (ofMembers (((name, j) :: before).reverse ++
      members.map fun m => (some m.1, m.2)))) rest k) :
    Completes (.done (.object before name :: stack) j)
      (writeMembers (depth + 1) members ++ (newLine depth ++ '}' :: rest)) k := by
  induction members generalizing j before name with
  | nil =>
      rw [List.map_nil, List.append_nil] at h
      exact Completes.newLine (.token rfl rfl (Nat.le_refl _) rfl h)
  | cons m members ih =>
      rw [List.forall_mem_cons] at written
      have others := @ih m.2 ((name, j) :: before) (some m.1) written.2 (by simpa using h)
      rw [writeMembers, List.append_assoc, List.append_assoc, List.append_assoc]
      refine .token rfl rfl (Nat.le_refl _) rfl (Completes.newLine ?_)
      exact completes_writeMember written.1 endsValue_writeMembers others

/-- Members whose names all denote something make an object. -/
theorem ofMembers_some :
    ofMembers (members.map fun m => (some m.1, m.2)) = object members := by
  have all : (members.map fun m => (some m.1, m.2)).mapM
      (fun m : Option String × Json => m.1.map fun name => (name, m.2)) = some members := by
    induction members with
    | nil => rfl
    | cons m members ih =>
        rw [List.map_cons, List.mapM_cons, ih]
        rfl
  rw [ofMembers, all]
  rfl

theorem written_array (written : ∀ j ∈ items, Written j) : Written (array items) := by
  intro depth stack rest k _ h
  cases items with
  | nil =>
      rw [write]
      exact .token rfl rfl (Nat.le_refl _) rfl (.token rfl rfl (Nat.le_refl _) rfl h)
  | cons j items =>
      rw [List.forall_mem_cons] at written
      rw [write]
      simp only [List.append_assoc, List.singleton_append]
      refine .token rfl rfl (Nat.le_refl _) rfl (Completes.newLine (Completes.firstItem ?_))
      exact written.1 _ _ _ _ endsValue_writeItems (completes_writeItems written.2 h)

theorem written_object (written : ∀ m ∈ members, Written m.2) : Written (object members) := by
  intro depth stack rest k _ h
  cases members with
  | nil =>
      rw [write]
      exact .token rfl rfl (Nat.le_refl _) rfl (.token rfl rfl (Nat.le_refl _) rfl h)
  | cons m members =>
      rw [List.forall_mem_cons] at written
      rw [write]
      simp only [List.append_assoc, List.singleton_append]
      refine .token rfl rfl (Nat.le_refl _) rfl (Completes.newLine (Completes.firstName ?_))
      refine completes_writeMember written.1 endsValue_writeMembers ?_
      refine completes_writeMembers written.2 ?_
      have all := @ofMembers_some (m :: members)
      rw [List.map_cons] at all
      rw [List.reverse_singleton, List.singleton_append, all]
      exact h

/-- **A plain value is read from its text wherever a value may come.** -/
theorem written (h : Plain d j) : Written j := by
  -- What follows is left open: inside a container it is the text of all that is still to come.
  induction h with
  | null =>
      intro depth stack rest k _ h
      rw [write]
      exact .token rfl rfl (List.suffix_append ['u', 'l', 'l'] rest).length_le rfl h
  | bool b =>
      intro depth stack rest k _ h
      cases b with
      | true =>
          rw [write]
          exact .token rfl rfl (List.suffix_append ['r', 'u', 'e'] rest).length_le rfl h
      | false =>
          rw [write]
          exact .token rfl rfl (List.suffix_append ['a', 'l', 's', 'e'] rest).length_le rfl h
  | integer inside =>
      intro depth stack rest k ends h
      obtain ⟨c, s, text, solid, le, scanned⟩ := exists_scan_showInt inside ends
      rw [write, text]
      exact .token solid scanned le rfl h
  | string s =>
      intro depth stack rest k _ h
      rw [write]
      exact completes_writeString rfl h
  | array _ ih => exact written_array ih
  | object _ ih => exact written_object ih

/-- **A plain value is read back from its text.** -/
theorem parse_text (h : Plain d j) : parse (text j) = some j := by
  have completes := written h 0 [] [] j endsValue_nil .done
  rw [List.append_nil] at completes
  exact completes.parse

end TemporalDB.Json
