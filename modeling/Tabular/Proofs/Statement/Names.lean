import Tabular.Proofs.Except
import Tabular.Proofs.Text.Word
import Tabular.Statement.Reader

/-!
# Names in statements

Every database and table that a statement names is named by a word in small letters, whatever was
written in the command.
-/

namespace Tabular.Statement

/-- The databases and tables of the statement are named by words in small letters. -/
def Named : Statement → Prop
  | use d | createDatabase d | dropDatabase d => Name.IsWord d
  | createTable t _ | dropTable t | alterTable t _ _ | insert t _ | select t _ _ | update t _ _
  | delete t _ => Name.IsWord t
  | join l r _ _ => Name.IsWord l ∧ Name.IsWord r

namespace Reader

variable {α β : Type} {P : α → Prop} {Q : β → Prop}

/-- Whatever the reader gives has the property. -/
def Yields (P : α → Prop) (m : Reader α) : Prop := ∀ ts a rest, m.run ts = .ok (a, rest) → P a

theorem yields_any (m : Reader α) : Yields (fun _ => True) m := fun _ _ _ _ => trivial

theorem yields_pure {a : α} (h : P a) : Yields P (pure a : Reader α) := by
  intro ts b rest hr
  cases hr
  exact h

theorem yields_bind {m : Reader α} {f : α → Reader β} (hm : Yields P m)
    (hf : ∀ a, P a → Yields Q (f a)) : Yields Q (m >>= f) := by
  intro ts b rest h
  rw [StateT.run_bind, Except.bind_eq_ok_iff] at h
  obtain ⟨⟨a, us⟩, ha, hb⟩ := h
  exact hf a (hm ts a us ha) us b rest hb

/-- What is read first may be anything. -/
theorem yields_then {m : Reader α} {f : α → Reader β} (hf : ∀ a, Yields Q (f a)) :
    Yields Q (m >>= f) := yields_bind (yields_any m) fun a _ => hf a

theorem yields_lift {x : Except Rejection α} (h : ∀ a, x = .ok a → P a) :
    Yields P (liftM x : Reader α) := by
  intro ts a rest hr
  cases hx : x with
  | error e => rw [hx] at hr; cases hr
  | ok b => rw [hx] at hr; cases hr; exact h _ hx

theorem database_yields : Yields Name.IsWord database :=
  yields_then fun _ => yields_lift fun _ => Name.isWord_of_database

theorem table_yields : Yields Name.IsWord table :=
  yields_then fun _ => yields_lift fun _ => Name.isWord_of_table

theorem use_yields : Yields Named use :=
  yields_bind database_yields fun _ h => yields_pure h

theorem create_yields : Yields Named create := by
  refine yields_then fun isDatabase => ?_
  cases isDatabase with
  | true => exact yields_bind database_yields fun _ h => yields_pure h
  | false =>
    exact yields_then fun _ => yields_bind table_yields fun _ h => yields_then fun _ => yields_pure h

theorem drop_yields : Yields Named drop := by
  refine yields_then fun isDatabase => ?_
  cases isDatabase with
  | true => exact yields_bind database_yields fun _ h => yields_pure h
  | false => exact yields_then fun _ => yields_bind table_yields fun _ h => yields_pure h

theorem alter_yields : Yields Named alter :=
  yields_then fun _ => yields_bind table_yields fun _ h => yields_then fun _ => yields_then fun _ =>
    yields_then fun _ => yields_pure h

theorem insert_yields : Yields Named insert :=
  yields_then fun _ => yields_bind table_yields fun _ h => yields_then fun _ => yields_then fun _ =>
    yields_pure h

theorem select_yields : Yields Named select :=
  yields_then fun _ => yields_then fun _ => yields_bind table_yields fun _ h =>
    yields_then fun _ => yields_pure h

theorem update_yields : Yields Named update :=
  yields_bind table_yields fun _ h => yields_then fun _ => yields_then fun _ =>
    yields_then fun _ => yields_pure h

theorem delete_yields : Yields Named delete :=
  yields_then fun _ => yields_bind table_yields fun _ h => yields_then fun _ => yields_pure h

theorem join_yields : Yields Named join :=
  yields_bind table_yields fun _ hl => yields_then fun _ => yields_bind table_yields fun _ hr =>
    yields_then fun _ => yields_then fun _ => yields_then fun _ => yields_then fun _ =>
      yields_pure ⟨hl, hr⟩

theorem body?_yields {k : Keyword} {body : Reader Statement} (h : body? k = some body) :
    Yields Named body := by
  unfold body? at h
  split at h <;> cases h
  · exact use_yields
  · exact create_yields
  · exact drop_yields
  · exact alter_yields
  · exact insert_yields
  · exact select_yields
  · exact update_yields
  · exact delete_yields
  · exact join_yields

end Reader

/-- What all readers of statements give, a command gives. -/
theorem ofCommand_of_yields {P : Statement → Prop} {command : Text} {s : Statement}
    (hP : ∀ k body, Reader.body? k = some body → Reader.Yields P body)
    (h : ofCommand command = .ok s) : P s := by
  unfold ofCommand at h
  split at h
  · cases h
  unfold ofText at h
  split at h
  · cases h
  · cases h
  unfold ofTokens at h
  split at h
  · split at h
    · cases h
    · next hbody =>
      split at h
      · cases h
      · next hrun =>
        cases h
        exact hP _ _ hbody _ _ _ hrun
      · cases h
  · cases h

/-- The names in the statement of any command are words in small letters. -/
theorem ofCommand_named {command : Text} {s : Statement} (h : ofCommand command = .ok s) :
    s.Named := ofCommand_of_yields (fun _ _ => Reader.body?_yields) h

end Tabular.Statement
