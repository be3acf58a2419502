import TemporalDB.Proofs.Outcome
import TemporalDB.Sql.Cursor

/-!
# What a parser gives

A parser ensures a property if everything that it gives has it. The rules follow the ways in which
parsers are put together.
-/

namespace TemporalDB.Sql.Parser

variable {α β : Type} {p : Parser α} {q : α → Parser β} {P : α → Prop} {Q : β → Prop} {a : α}

/-- Whatever the parser gives has the property. -/
def Ensures (p : Parser α) (P : α → Prop) : Prop :=
  ∀ c a rest, p c = .ok (a, rest) → P a

namespace Ensures

theorem trivial : p.Ensures fun _ => True := fun _ _ _ _ => True.intro

theorem pure (h : P a) : Ensures (Pure.pure a) P := by
  rintro c a rest ⟨⟩
  exact h

theorem bind (hp : p.Ensures P) (hq : ∀ a, P a → (q a).Ensures Q) : (p >>= q).Ensures Q := by
  intro c b rest h
  obtain ⟨⟨a, c'⟩, ha, hb⟩ := bind_eq_ok_iff.mp h
  exact hq a (hp c a c' ha) c' b rest hb

theorem seq (hq : ∀ a, (q a).Ensures Q) : (p >>= q).Ensures Q := trivial.bind fun a _ => hq a

theorem ite {cond : Prop} [Decidable cond] {p' : Parser α} (hp : cond → p.Ensures P)
    (hp' : ¬cond → p'.Ensures P) : (if cond then p else p').Ensures P := by
  split
  · next h => exact hp h
  · next h => exact hp' h

theorem fail {fault : Fault} : Ensures (Parser.fail fault) P := by
  rintro c a rest ⟨⟩

theorem unexpected {expected : String} : Ensures (Parser.unexpected expected) P := by
  rintro c a rest ⟨⟩

theorem ofExcept {r : Except Fault α} (h : ∀ a, r = .ok a → P a) :
    Ensures (Parser.ofExcept r) P := by
  cases r with
  | error fault => exact fail
  | ok a => exact pure (h a rfl)

/-- There is at least one item among items with separators. -/
theorem separated_ne_nil {separator : Parser Bool} :
    (separated separator p).Ensures fun items => items ≠ [] := by
  have upTo : ∀ bound, (separatedUpTo separator p bound).Ensures fun items => items ≠ [] := by
    intro bound
    cases bound with
    | zero => exact seq fun a => pure (List.cons_ne_nil _ _)
    | succ bound =>
        refine seq fun a => seq fun more => ite (fun _ => ?_) fun _ => ?_
        · exact seq fun others => pure (List.cons_ne_nil _ _)
        · exact pure (List.cons_ne_nil _ _)
  intro c items rest h
  exact upTo _ c items rest h

theorem repeated {step : α → Parser (Option α)} (hstep : ∀ a, P a → (step a).Ensures fun o =>
    ∀ b ∈ o, P b) (ha : P a) : (Parser.repeated step a).Ensures P := by
  have upTo : ∀ bound a, P a → (repeatUpTo step bound a).Ensures P := by
    intro bound
    induction bound with
    | zero => exact fun a ha => pure ha
    | succ bound ih =>
        intro a ha
        refine (hstep a ha).bind fun o ho => ?_
        cases o with
        | none => exact pure ha
        | some b => exact ih b (ho b rfl)
  intro c b rest h
  exact upTo _ a ha c b rest h

/-- What a parser ensures holds of what it gives over a whole text. -/
theorem run {tokens : List Located} (hp : p.Ensures P) (h : p.run tokens = .ok a) : P a := by
  unfold Parser.run at h
  cases hc : p (Cursor.start tokens) with
  | error e => rw [hc] at h; cases h
  | ok r =>
      rw [hc] at h
      cases h
      exact hp _ _ _ hc

end Ensures

end TemporalDB.Sql.Parser
