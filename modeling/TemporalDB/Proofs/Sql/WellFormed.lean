import TemporalDB.Proofs.Sql.Declarations
import TemporalDB.Proofs.Sql.Lexeme
import TemporalDB.Proofs.Sql.Passage

/-!
# Well-formed schemas

In a well-formed schema every name is a word, names differ but for the case of their letters, values
of every type can be stored, and every relation has a key: columns of its own, none of them twice,
that do not admit null. Main statement: `wellFormed_of_parseSchema`.
-/

namespace TemporalDB

open Sql

structure Relation.WellFormed (r : Relation) : Prop where
  name : tokens r.name = .ok [⟨.word r.name, 1⟩]
  columns : ∀ c ∈ r.columns, tokens c.name = .ok [⟨.word c.name, 1⟩]
  differ : NamesDiffer (r.columns.map (·.name))
  types : ∀ c ∈ r.columns, c.type.Storable
  key_ne_nil : r.primaryKey ≠ []
  key_nodup : r.primaryKey.Nodup
  key_lt : ∀ i ∈ r.primaryKey, i < r.arity
  key_notNull : ∀ i ∈ r.primaryKey, ∀ c ∈ r.columns[i]?, c.notNull = true

structure Schema.WellFormed (s : Schema) : Prop where
  differ : NamesDiffer (s.relations.map (·.name))
  relations : ∀ r ∈ s.relations, r.WellFormed

namespace Sql

open TemporalDB.Sql.Parser

variable {α β : Type}

/-! ## Names that texts can hold -/

/-- From tokens that can be written, the parser gives what has the property and leaves such
tokens. -/
def Parser.Gives (p : Parser α) (P : α → Prop) : Prop :=
  ∀ c a rest, (∀ l ∈ c.rest, l.token.Genuine) → p c = .ok (a, rest) →
    P a ∧ ∀ l ∈ rest.rest, l.token.Genuine

namespace Parser.Gives

variable {p : Parser α} {q : α → Parser β} {P : α → Prop} {Q : β → Prop} {a : α}

theorem pure (h : P a) : Gives (Pure.pure a) P := by
  rintro c a rest genuine ⟨⟩
  exact ⟨h, genuine⟩

theorem bind (hp : p.Gives P) (hq : ∀ a, P a → (q a).Gives Q) : (p >>= q).Gives Q := by
  intro c b rest genuine h
  obtain ⟨a, c₁, ha, hb⟩ := bind_eq_ok.mp h
  obtain ⟨good, genuine⟩ := hp c a c₁ genuine ha
  exact hq a good c₁ b rest genuine hb

theorem mono (hp : p.Gives P) {R : α → Prop} (h : ∀ a, P a → R a) : p.Gives R := by
  intro c a rest genuine ha
  obtain ⟨good, genuine⟩ := hp c a rest genuine ha
  exact ⟨h a good, genuine⟩

theorem and (hp : p.Gives P) {R : α → Prop} (hp' : p.Ensures R) : p.Gives fun a => P a ∧ R a := by
  intro c a rest genuine ha
  obtain ⟨good, genuine⟩ := hp c a rest genuine ha
  exact ⟨⟨good, hp' c a rest ha⟩, genuine⟩

/-- What comes before does not matter but for the tokens that it leaves. -/
theorem seq (hp : p.Gives fun _ => True) (hq : ∀ a, (q a).Gives Q) : (p >>= q).Gives Q :=
  hp.bind fun a _ => hq a

theorem ite {cond : Prop} [Decidable cond] {p' : Parser α} (hp : p.Gives P) (hp' : p'.Gives P) :
    (if cond then p else p').Gives P := by
  split
  · exact hp
  · exact hp'

theorem fail {fault : Fault} : Gives (Parser.fail fault) P := by
  rintro c a rest - ⟨⟩

theorem unexpected {expected : String} : Gives (Parser.unexpected expected) P := by
  rintro c a rest - ⟨⟩

theorem ofExcept {r : Except Fault α} (h : ∀ a, r = .ok a → P a) :
    Gives (Parser.ofExcept r) P := by
  cases r with
  | error fault => exact fail
  | ok a => exact pure (h a rfl)

/-- The tokens that were passed are left out, and what is given may come from them. -/
theorem of_passes (h : ∀ c a c', p c = .ok (a, c') →
    ∃ ts, c.Passes ts c' ∧ ((∀ t ∈ ts, t.Genuine) → P a)) : p.Gives P := by
  intro c a rest genuine ha
  obtain ⟨ts, passes, good⟩ := h c a rest ha
  have all : ∀ t ∈ ts ++ rest.rest.map (·.token), t.Genuine := by
    rw [← passes.map_token]
    exact List.forall_mem_map.mpr genuine
  obtain ⟨front, back⟩ := List.forall_mem_append.mp all
  exact ⟨good front, List.forall_mem_map.mp back⟩

theorem sign? {t : Token} (ht : t ≠ .param) : (sign? t).Gives fun _ => True := by
  refine of_passes fun c taken c' h => ?_
  cases taken with
  | false =>
      obtain ⟨-, rfl⟩ := sign?_eq_false.mp h
      exact ⟨[], .nil c, fun _ => trivial⟩
  | true => exact ⟨[t], ((sign?_eq_true ht).mp h).passes, fun _ => trivial⟩

theorem sign {t : Token} (ht : t ≠ .param) : (sign t).Gives fun _ => True :=
  of_passes fun _ _ _ h => ⟨[t], ((sign_eq_ok ht).mp h).passes, fun _ => trivial⟩

theorem keywords? {ks : List String} : (keywords? ks).Gives fun _ => True := by
  refine of_passes fun c taken c' h => ?_
  cases taken with
  | false =>
      obtain ⟨-, rfl⟩ := keywords?_eq_false.mp h
      exact ⟨[], .nil c, fun _ => trivial⟩
  | true =>
      obtain ⟨ts, -, passes⟩ := keywords?_eq_true.mp h
      exact ⟨ts, passes, fun _ => trivial⟩

theorem keyword {k : String} : (keyword k).Gives fun _ => True :=
  seq keywords? fun _ => ite (pure trivial) unexpected

theorem identifier : identifier.Gives IsWord := by
  refine of_passes fun c w c' h => ⟨_, (identifier_eq_ok.mp h).passes, fun genuine => ?_⟩
  exact genuine _ List.mem_cons_self

theorem count : count.Gives fun _ => True := by
  refine of_passes fun c k c' h => ?_
  obtain ⟨n, taken, -⟩ := count_eq_ok.mp h
  exact ⟨_, taken.passes, fun _ => trivial⟩

theorem opens : opens.Gives fun _ => True := by
  rintro c a rest genuine ⟨⟩
  exact ⟨trivial, genuine⟩

theorem separated {separator : Parser Bool} (hs : separator.Gives fun _ => True)
    (hp : p.Gives fun _ => True) : (separated separator p).Gives fun _ => True := by
  have upTo : ∀ bound, (separatedUpTo separator p bound).Gives fun _ => True := by
    intro bound
    induction bound with
    | zero => exact seq hp fun a => pure trivial
    | succ bound ih =>
        exact seq hp fun a => seq hs fun more =>
          ite (seq ih fun others => pure trivial) (pure trivial)
  intro c items rest genuine h
  exact upTo _ c items rest genuine h

theorem parenthesized (hp : p.Gives fun _ => True) : (parenthesized p).Gives fun _ => True :=
  seq (sign (by simp)) fun _ => seq (separated (sign? (by simp)) hp) fun items =>
    seq (sign (by simp)) fun _ => pure trivial

theorem repeated {step : α → Parser (Option α)}
    (hstep : ∀ a, P a → (step a).Gives fun o => ∀ b ∈ o, P b) (ha : P a) :
    (Parser.repeated step a).Gives P := by
  have upTo : ∀ bound a, P a → (repeatUpTo step bound a).Gives P := by
    intro bound
    induction bound with
    | zero => exact fun a ha => pure ha
    | succ bound ih =>
        intro a ha
        refine (hstep a ha).bind fun o ho => ?_
        cases o with
        | none => exact pure ha
        | some b => exact ih b (ho b rfl)
  intro c b rest genuine h
  exact upTo _ a ha c b rest genuine h

end Parser.Gives

open Parser.Gives

theorem gives_scalarType : scalarType.Gives fun _ => True := by
  have arguments : (do if ← opens then parenthesized count else pure [] :
      Parser (List Nat)).Gives fun _ => True :=
    seq Gives.opens fun _ => ite (Gives.parenthesized Gives.count) (Gives.pure trivial)
  intro c type rest genuine h
  obtain ⟨⟨name, c₁⟩, hname, h⟩ := bind_eq_ok_iff.mp h
  obtain ⟨-, genuine⟩ := Gives.identifier c name c₁ genuine hname
  obtain ⟨⟨args, c₂⟩, hargs, h⟩ := bind_eq_ok_iff.mp h
  obtain ⟨-, genuine⟩ := arguments c₁ args c₂ genuine hargs
  dsimp only at h
  cases ht : ScalarType.ofParts name args with
  | error e => rw [ht] at h; cases h
  | ok type' =>
      rw [ht] at h
      cases h
      exact ⟨trivial, genuine⟩

theorem gives_columnOption {o : ColumnOptions} : (columnOption o).Gives fun _ => True :=
  seq Gives.keywords? fun _ => ite (Gives.pure trivial) <|
    seq Gives.keywords? fun _ => ite (Gives.pure trivial) <|
    seq Gives.keywords? fun _ => ite (Gives.pure trivial) (Gives.pure trivial)

theorem gives_column : column.Gives fun c => IsWord c.1.name := by
  refine Gives.identifier.bind fun name word => seq gives_scalarType fun type => ?_
  have options : (repeated columnOption ⟨false, false⟩).Gives fun _ => True :=
    Gives.repeated (fun o _ => gives_columnOption.mono fun _ _ _ _ => trivial) trivial
  exact seq options fun options => Gives.pure word

/-- The columns of a draft have names that texts can hold. -/
def Draft.Worded (d : Draft) : Prop := ∀ c ∈ d.columns, IsWord c.name

theorem gives_element {relation : String} {d : Draft} (hd : d.Worded) :
    (element relation d).Gives Draft.Worded := by
  unfold element
  refine seq Gives.keywords? fun primary => ite ?_ ?_
  · extract_lets named
    have names : ∀ u, (named u).Gives Draft.Worded := fun _ =>
      seq (Gives.parenthesized (Gives.identifier.mono fun _ _ => trivial)) fun names =>
        Gives.pure hd
    exact ite (seq Gives.fail names) (names ())
  · refine gives_column.bind fun ⟨c, key⟩ word => Gives.ofExcept fun d' h => ?_
    unfold Draft.Worded
    rw [withColumn_columns h, List.forall_mem_append]
    exact ⟨hd, List.forall_mem_singleton.mpr word⟩

theorem gives_elements {relation : String} : (elements relation).Gives Draft.Worded := by
  have upTo : ∀ bound d, d.Worded → (elementsUpTo relation bound d).Gives Draft.Worded := by
    intro bound
    induction bound with
    | zero =>
        exact fun d hd => (gives_element hd).bind fun d' hd' =>
          seq (Gives.sign (by simp)) fun _ => Gives.pure hd'
    | succ bound ih =>
        intro d hd
        refine (gives_element hd).bind fun d' hd' => seq (Gives.sign? (by simp)) fun more => ?_
        exact ite (ih d' hd') (seq (Gives.sign (by simp)) fun _ => Gives.pure hd')
  intro c d rest genuine h
  exact upTo _ ⟨[], none⟩ (List.forall_mem_nil _) c d rest genuine h

/-! ## Relations -/

theorem nodup_of_keyIndexes {relation : String} {columns : List Column} {found key : List Nat}
    {names : List String} (h : keyIndexes relation columns found names = .ok key)
    (before : found.Nodup) : key.Nodup := by
  induction names generalizing found with
  | nil =>
      cases h
      exact before
  | cons name names ih =>
      unfold keyIndexes at h
      split at h
      · cases h
      · rename_i i hi
        split_ifs at h with taken
        have new : i ∉ found := by simpa using taken
        refine ih h (List.nodup_append.mpr ⟨before, by simp, fun a ha b hb same => new ?_⟩)
        rwa [← List.mem_singleton.mp hb, ← same]

theorem wellFormed_relation {name : String} {d : Draft} {temporal : Bool} {r : Relation}
    (word : IsWord name) (worded : d.Worded) (admitted : d.Admitted) (declared : d.Declared)
    (h : d.relation name temporal = .ok r) : r.WellFormed := by
  have declared := declared_relation declared h
  have admitted := admitted_relation admitted h
  unfold Draft.relation at h
  split at h
  · cases h
  · obtain ⟨key, hkey, h⟩ := bind_eq_ok_iff.mp h
    cases h
    refine ⟨isWord_iff.mp word, ?_, declared.columns, fun c hc =>
      ScalarType.admitted_iff.mp (admitted c hc), declared.key_ne_nil,
      nodup_of_keyIndexes hkey List.nodup_nil, declared.key_lt, ?_⟩
    · intro c hc
      obtain ⟨i, hi, rfl⟩ := List.mem_mapIdx.mp hc
      exact isWord_iff.mp (worded d.columns[i] (List.getElem_mem hi))
    · intro i hi c hc
      change i ∈ key at hi
      rw [Option.mem_def, List.getElem?_mapIdx] at hc
      obtain ⟨c', -, rfl⟩ := Option.map_eq_some_iff.mp hc
      simp [hi]

theorem gives_createTable : createTable.Gives Relation.WellFormed := by
  unfold createTable
  refine seq Gives.keyword fun _ => seq Gives.keyword fun _ => ?_
  refine Gives.identifier.bind fun name word => seq (Gives.sign (by simp)) fun _ => ?_
  refine ((gives_elements.and ensures_elements).and declared_elements).bind ?_
  rintro d ⟨⟨worded, admitted⟩, declared⟩
  exact seq Gives.keywords? fun temporal =>
    Gives.ofExcept fun r h => wellFormed_relation word worded admitted declared h

/-! ## Schemas -/

theorem wellFormed_append {s : Schema} {r : Relation} (hs : s.WellFormed) (hr : r.WellFormed)
    (new : s.relation? r.name = none) : Schema.WellFormed ⟨s.relations ++ [r]⟩ := by
  refine ⟨?_, ?_⟩
  · rw [List.map_append, List.map_singleton, namesDiffer_append_singleton]
    refine ⟨hs.differ, List.forall_mem_map.mpr fun other hother => ?_⟩
    simpa using List.find?_eq_none.mp new other hother
  · exact List.forall_mem_append.mpr ⟨hs.relations, List.forall_mem_singleton.mpr hr⟩

theorem gives_schemaStep {s : Schema} (hs : s.WellFormed) :
    (schemaStep s).Gives fun o => ∀ s' ∈ o, s'.WellFormed := by
  intro c o rest genuine h
  unfold schemaStep at h
  split_ifs at h
  · cases h
    exact ⟨fun _ h => (nomatch h), genuine⟩
  · obtain ⟨⟨semicolon, c₁⟩, hsemicolon, h⟩ := bind_eq_ok_iff.mp h
    dsimp only at h
    split_ifs at h
    · cases h
      -- a semicolon without a declaration adds nothing
      obtain ⟨-, genuine⟩ := Gives.sign? (by simp) c _ _ genuine hsemicolon
      refine ⟨?_, genuine⟩
      rintro _ ⟨⟩
      exact hs
    · obtain ⟨⟨r, c₂⟩, hr, h⟩ := bind_eq_ok_iff.mp h
      obtain ⟨wellFormed, genuine⟩ := gives_createTable c r c₂ genuine hr
      dsimp only at h
      split_ifs at h with taken ended
      all_goals have grown := wellFormed_append hs wellFormed (by simpa using taken)
      · cases h
        refine ⟨?_, genuine⟩
        rintro _ ⟨⟩
        exact grown
      · obtain ⟨⟨_, c₃⟩, hsign, h⟩ := bind_eq_ok_iff.mp h
        cases h
        obtain ⟨-, genuine⟩ := Gives.sign (by simp) c₂ _ _ genuine hsign
        refine ⟨?_, genuine⟩
        rintro _ ⟨⟩
        exact grown

/-- **A schema that was read is well-formed.** -/
theorem wellFormed_of_parseSchema {text : String} {s : Schema} (h : parseSchema text = .ok s) :
    s.WellFormed := by
  obtain ⟨ls, hls, h⟩ := bind_eq_ok_iff.mp h
  obtain ⟨c', h⟩ := run_eq_ok.mp h
  have steps : (repeated schemaStep ⟨[]⟩).Gives Schema.WellFormed :=
    Gives.repeated (fun _ hs => gives_schemaStep hs) ⟨.nil, List.forall_mem_nil _⟩
  have genuine := genuine_of_tokensFrom hls
  exact (steps (Cursor.start ls) s c' genuine h).1

end Sql

end TemporalDB
