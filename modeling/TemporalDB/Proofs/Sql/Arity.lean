import TemporalDB.Proofs.Sql.Declarations

/-!
# How many columns a text can declare

A parser leaves no more tokens than there were, and each column of a relation takes one. So the
places of columns that a schema names are less than its text is long.
-/

namespace TemporalDB.Sql

/-! ## Tokens that are left -/

namespace Parser

variable {α β : Type} {p : Parser α} {q : α → Parser β} {P P' : α → Prop} {Q : β → Prop} {a : α}
  {n : Nat}

/-- Where no more than `n` tokens are left, the parser leaves no more than `n` and gives what has the
property. -/
def Within (n : Nat) (p : Parser α) (P : α → Prop) : Prop :=
  ∀ c a c', c.rest.length ≤ n → p c = .ok (a, c') → c'.rest.length ≤ n ∧ P a

namespace Within

theorem pure (h : P a) : Within n (Pure.pure a) P := by
  rintro c a c' left ⟨⟩
  exact ⟨left, h⟩

theorem mono (hp : Within n p P) (h : ∀ a, P a → P' a) : Within n p P' :=
  fun c a c' left ha => (hp c a c' left ha).imp_right (h a)

theorem bind (hp : Within n p P) (hq : ∀ a, P a → Within n (q a) Q) : Within n (p >>= q) Q := by
  intro c b c' left h
  obtain ⟨⟨a, c₁⟩, ha, hb⟩ := bind_eq_ok_iff.mp h
  obtain ⟨left', given⟩ := hp c a c₁ left ha
  exact hq a given c₁ b c' left' hb

theorem seq (hp : Within n p P) (hq : ∀ a, Within n (q a) Q) : Within n (p >>= q) Q :=
  hp.bind fun a _ => hq a

theorem ite {cond : Prop} [Decidable cond] {p' : Parser α} (hp : Within n p P)
    (hp' : Within n p' P) : Within n (if cond then p else p') P := by
  split
  · exact hp
  · exact hp'

theorem fail {fault : Fault} : Within n (Parser.fail fault) P := by
  rintro c a c' left ⟨⟩

theorem unexpected {expected : String} : Within n (Parser.unexpected expected) P := by
  rintro c a c' left ⟨⟩

theorem ofExcept {r : Except Fault α} (h : ∀ a, r = .ok a → P a) :
    Within n (Parser.ofExcept r) P := by
  cases r with
  | error fault => exact fail
  | ok a => exact pure (h a rfl)

/-! ### Single tokens -/

theorem sign? {t : Token} : Within n (Parser.sign? t) fun _ => True := by
  intro c a c' left h
  unfold Parser.sign? at h
  cases rest : c.rest with
  | nil =>
      rw [rest] at h
      cases h
      exact ⟨left, trivial⟩
  | cons u others =>
      rw [rest] at h left
      dsimp only at h
      split at h
      · cases h
        exact ⟨Nat.le_of_succ_le left, trivial⟩
      · cases h
        exact ⟨rest ▸ left, trivial⟩

theorem sign {t : Token} : Within n (Parser.sign t) fun _ => True := by
  unfold Parser.sign
  exact sign?.seq fun _ => ite (pure trivial) unexpected

theorem length_afterKeywords {keywords : List String} {tokens rest : List Located}
    (h : afterKeywords keywords tokens = some rest) : rest.length ≤ tokens.length := by
  fun_induction afterKeywords keywords tokens with
  | case1 => cases h; exact Nat.le_refl _
  | case2 keyword keywords w line tokens same ih => exact Nat.le_succ_of_le (ih h)
  | case3 => cases h
  | case4 => cases h

theorem keywords? {keywords : List String} :
    Within n (Parser.keywords? keywords) fun _ => True := by
  intro c a c' left h
  unfold Parser.keywords? at h
  split at h
  · next rest taken =>
      cases h
      exact ⟨Nat.le_trans (length_afterKeywords taken) left, trivial⟩
  · cases h
    exact ⟨left, trivial⟩

theorem keyword {keyword : String} : Within n (Parser.keyword keyword) fun _ => True := by
  unfold Parser.keyword Parser.keyword?
  exact keywords?.seq fun _ => ite (pure trivial) unexpected

theorem identifier : Within n Parser.identifier fun _ => True := by
  intro c a c' left h
  unfold Parser.identifier at h
  split at h
  · next w line rest tokens =>
      cases h
      rw [tokens] at left
      exact ⟨Nat.le_of_succ_le left, trivial⟩
  · cases h

theorem count : Within n Parser.count fun _ => True := by
  intro c a c' left h
  unfold Parser.count at h
  split at h
  · next m line rest tokens =>
      split at h
      · cases h
        rw [tokens] at left
        exact ⟨Nat.le_of_succ_le left, trivial⟩
      · cases h
  · cases h

theorem opens : Within n Parser.opens fun _ => True := by
  rintro c a c' left ⟨⟩
  exact ⟨left, trivial⟩

/-! ### Many tokens -/

theorem separated {separator : Parser Bool} (hseparator : Within n separator fun _ => True)
    (hp : Within n p fun _ => True) : Within n (Parser.separated separator p) fun _ => True := by
  have upTo : ∀ bound, Within n (separatedUpTo separator p bound) fun _ => True := by
    intro bound
    induction bound with
    | zero => exact hp.seq fun _ => pure trivial
    | succ bound ih =>
        refine hp.seq fun _ => hseparator.seq fun _ => ite ?_ (pure trivial)
        exact ih.seq fun _ => pure trivial
  intro c a c' left h
  exact upTo c.rest.length c a c' left h

theorem parenthesized (hp : Within n p fun _ => True) :
    Within n (Parser.parenthesized p) fun _ => True := by
  unfold Parser.parenthesized commaSeparated
  exact sign.seq fun _ => (separated sign? hp).seq fun _ => sign.seq fun _ => pure trivial

theorem repeated {step : α → Parser (Option α)}
    (hstep : ∀ a, P a → Within n (step a) fun o => ∀ b ∈ o, P b) (ha : P a) :
    Within n (Parser.repeated step a) P := by
  have upTo : ∀ bound a, P a → Within n (repeatUpTo step bound a) P := by
    intro bound
    induction bound with
    | zero => exact fun a ha => pure ha
    | succ bound ih =>
        intro a ha
        refine (hstep a ha).bind fun o ho => ?_
        cases o with
        | none => exact pure ha
        | some b => exact ih b (ho b rfl)
  intro c b c' left h
  exact upTo c.rest.length a ha c b c' left h

end Within

end Parser

open TemporalDB.Sql.Parser TemporalDB.Sql.Parser.Within

/-! ## Columns -/

variable {n : Nat} {relation : String} {d : Draft}

theorem within_columnOption {o : ColumnOptions} : Within n (columnOption o) fun _ => True := by
  unfold columnOption keyword?
  refine keywords?.seq fun _ => ite (pure trivial) ?_
  exact keywords?.seq fun _ => ite (pure trivial)
    (keywords?.seq fun _ => ite (pure trivial) (pure trivial))

theorem within_scalarType : Within n scalarType fun _ => True := by
  intro c type c' left h
  obtain ⟨⟨name, c₁⟩, hname, h⟩ := bind_eq_ok_iff.mp h
  obtain ⟨⟨args, c₂⟩, hargs, h⟩ := bind_eq_ok_iff.mp h
  have parameters : Within n (do if ← opens then Parser.parenthesized Parser.count else Pure.pure [] :
      Parser (List Nat)) fun _ => True :=
    opens.seq fun _ => ite (parenthesized count) (pure trivial)
  have left₁ := (identifier c name c₁ left hname).1
  have left₂ := (parameters c₁ args c₂ left₁ hargs).1
  dsimp only at h
  split at h
  · cases h
    exact ⟨left₂, trivial⟩
  · cases h

theorem within_column : Within n column fun _ => True := by
  unfold column
  refine identifier.seq fun _ => within_scalarType.seq fun _ => ?_
  exact (repeated (P := fun _ => True) (fun _ _ => within_columnOption.mono fun _ _ _ _ => trivial)
    trivial).seq fun _ => pure trivial

theorem within_element :
    Within n (element relation d) fun d' => d'.columns.length ≤ d.columns.length + 1 := by
  unfold element
  refine keywords?.seq fun _ => ite ?_ ?_
  · extract_lets named
    have names : ∀ u, Within n (named u) fun d' => d'.columns.length ≤ d.columns.length + 1 :=
      fun _ => (Within.parenthesized identifier).seq fun _ => pure (Nat.le_succ _)
    exact ite ((fail (P := fun _ => True)).seq names) (names ())
  · refine within_column.seq fun ⟨c, key⟩ => ofExcept fun d' h => ?_
    rw [withColumn_columns h, List.length_append, List.length_singleton]

theorem within_elements : Within n (elements relation) fun d => d.columns.length ≤ n + 1 := by
  have upTo : ∀ bound d, Within n (elementsUpTo relation bound d)
      fun d' => d'.columns.length ≤ d.columns.length + bound + 1 := by
    intro bound
    induction bound with
    | zero => exact fun d => within_element.bind fun d' h => sign.seq fun _ => pure h
    | succ bound ih =>
        intro d
        refine within_element.bind fun d' h => sign?.seq fun _ => ite ?_ ?_
        · refine (ih d').mono fun d'' h' => ?_
          omega
        · exact sign.seq fun _ => pure (by omega)
  intro c d c' left h
  obtain ⟨left', columns⟩ := upTo c.rest.length ⟨[], none⟩ c d c' left h
  refine ⟨left', Nat.le_trans columns ?_⟩
  rw [List.length_nil]
  omega

theorem within_createTable : Within n createTable fun r => r.arity ≤ n + 1 := by
  unfold createTable
  refine keyword.seq fun _ => keyword.seq fun _ => identifier.seq fun _ => sign.seq fun _ => ?_
  refine within_elements.bind fun d columns => keywords?.seq fun temporal => ofExcept fun r h => ?_
  unfold Draft.relation at h
  split at h
  · cases h
  · obtain ⟨key, -, h⟩ := bind_eq_ok_iff.mp h
    cases h
    show (List.mapIdx _ d.columns).length ≤ n + 1
    rw [List.length_mapIdx]
    exact columns

theorem within_schemaStep {s : Schema} (hs : ∀ r ∈ s.relations, r.arity ≤ n + 1) :
    Within n (schemaStep s) fun o => ∀ s' ∈ o, ∀ r ∈ s'.relations, r.arity ≤ n + 1 := by
  intro c o c' left h
  unfold schemaStep at h
  split_ifs at h
  · cases h
    exact ⟨left, nofun⟩
  · obtain ⟨⟨semicolon, c₁⟩, hsign, h⟩ := bind_eq_ok_iff.mp h
    dsimp only at h
    split_ifs at h
    · cases h
      refine ⟨(sign? c _ _ left hsign).1, ?_⟩
      rintro _ ⟨⟩
      exact hs
    · obtain ⟨⟨r, c₂⟩, hr, h⟩ := bind_eq_ok_iff.mp h
      obtain ⟨left₂, columns⟩ := within_createTable c r c₂ left hr
      have more : ∀ r' ∈ s.relations ++ [r], r'.arity ≤ n + 1 := by
        rw [List.forall_mem_append]
        exact ⟨hs, List.forall_mem_singleton.mpr columns⟩
      dsimp only at h
      split_ifs at h
      · cases h
        refine ⟨left₂, ?_⟩
        rintro _ ⟨⟩
        exact more
      · obtain ⟨⟨_, c₃⟩, hsemicolon, h⟩ := bind_eq_ok_iff.mp h
        cases h
        refine ⟨(sign c₂ _ _ left₂ hsemicolon).1, ?_⟩
        rintro _ ⟨⟩
        exact more

/-! ## Texts -/

theorem length_tokensFrom {line : Nat} {s : List Char} {tokens : List Located}
    (h : tokensFrom line s = .ok tokens) : tokens.length ≤ s.length := by
  fun_induction tokensFrom line s generalizing tokens with
  | case1 =>
      cases h
      exact Nat.le_refl _
  | case2 => cases h
  | case3 line c rest l scanned ih =>
      obtain ⟨others, hothers, h⟩ := bind_eq_ok_iff.mp h
      have fewer := ih hothers
      have shorter := length_le_of_scan scanned
      cases token : l.token with
      | none =>
          rw [token] at h
          cases h
          rw [List.length_cons]
          omega
      | some t =>
          rw [token] at h
          cases h
          rw [List.length_cons, List.length_cons]
          omega

/-- **A relation has no more columns than its text has characters**, and one. -/
theorem arity_le_of_parseSchema {text : String} {s : Schema} (h : parseSchema text = .ok s) :
    ∀ r ∈ s.relations, r.arity ≤ text.length + 1 := by
  obtain ⟨tokens, htokens, h⟩ := bind_eq_ok_iff.mp h
  have few : tokens.length ≤ text.length := by
    rw [← String.length_toList]
    exact length_tokensFrom htokens
  unfold Parser.run at h
  cases ran : repeated schemaStep ⟨[]⟩ (Cursor.start tokens) with
  | error e =>
      rw [ran] at h
      cases h
  | ok result =>
      rw [ran] at h
      cases h
      exact (Within.repeated (fun _ hs => within_schemaStep hs) (List.forall_mem_nil _)
        _ _ _ few ran).2

end TemporalDB.Sql
