import Tabular.Proofs.Condition.Stumbling
import Tabular.Proofs.Statement.Names

/-!
# Spelling in statements

The literals in the condition of a statement that is read are spelled as literals are, so that those
that are numbers can be read as numbers.
-/

namespace Tabular.Statement

def condition? : Statement → Option Condition
  | select _ _ c | update _ _ c | delete _ c => c
  | use _ | createDatabase _ | dropDatabase _ | createTable _ _ | dropTable _ | alterTable _ _ _
  | insert _ _ | join _ _ _ _ => none

/-- Every literal in the condition that is a number is spelled as one. -/
def IsSpelled (s : Statement) : Prop := ∀ c ∈ s.condition?, c.IsSpelled

namespace Reader

theorem condition_yields : Yields (fun c => ∀ d ∈ c, Condition.IsSpelled d) condition := by
  refine yields_then fun isThere => ?_
  cases isThere with
  | false => exact yields_pure nofun
  | true =>
    refine yields_then fun ts => ?_
    cases ts with
    | nil => exact fun _ _ _ h => nomatch h
    | cons t ts =>
      have hread : Yields (fun r : Condition × List Token => r.1.IsSpelled)
          (liftM ((Condition.read (t :: ts)).mapError Rejection.condition)) :=
        yields_lift fun r h => Condition.isSpelled_of_read (Except.mapError_eq_ok_iff.1 h)
      refine yields_bind hread fun r hr => yields_then fun _ => yields_pure ?_
      rintro d ⟨⟩
      exact hr

theorem spelled_pure {s : Statement} (h : s.condition? = none) :
    Yields IsSpelled (pure s : Reader Statement) :=
  yields_pure fun c hc => by rw [h] at hc; cases hc

theorem body?_spelled {k : Keyword} {body : Reader Statement} (h : body? k = some body) :
    Yields IsSpelled body := by
  unfold body? at h
  split at h <;> cases h
  · exact yields_then fun _ => spelled_pure rfl
  · refine yields_then fun isDatabase => ?_
    cases isDatabase with
    | true => exact yields_then fun _ => spelled_pure rfl
    | false => exact yields_then fun _ => yields_then fun _ => yields_then fun _ => spelled_pure rfl
  · refine yields_then fun isDatabase => ?_
    cases isDatabase with
    | true => exact yields_then fun _ => spelled_pure rfl
    | false => exact yields_then fun _ => yields_then fun _ => spelled_pure rfl
  · exact yields_then fun _ => yields_then fun _ => yields_then fun _ => yields_then fun _ =>
      yields_then fun _ => spelled_pure rfl
  · exact yields_then fun _ => yields_then fun _ => yields_then fun _ => yields_then fun _ =>
      spelled_pure rfl
  · exact yields_then fun _ => yields_then fun _ => yields_then fun _ =>
      yields_bind condition_yields fun _ hc => yields_pure hc
  · exact yields_then fun _ => yields_then fun _ => yields_then fun _ =>
      yields_bind condition_yields fun _ hc => yields_pure hc
  · exact yields_then fun _ => yields_then fun _ =>
      yields_bind condition_yields fun _ hc => yields_pure hc
  · exact yields_then fun _ => yields_then fun _ => yields_then fun _ => yields_then fun _ =>
      yields_then fun _ => yields_then fun _ => yields_then fun _ => spelled_pure rfl

end Reader

theorem ofCommand_spelled {command : Text} {s : Statement} (h : ofCommand command = .ok s) :
    s.IsSpelled := ofCommand_of_yields (fun _ _ => Reader.body?_spelled) h

end Tabular.Statement
