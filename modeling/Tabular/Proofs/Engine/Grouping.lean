import Tabular.Engine
import Tabular.Proofs.Statement.Parentheses

/-!
# Grouping does not matter

How the operands of one connective are grouped does not matter: neither to what a condition means,
nor, where the groups are parentheses in a text, to what a command does and is answered.
-/

namespace Tabular

/-! ## Tables -/

namespace Table

variable {c c' : Condition} (h : c.meaning = c'.meaning) (t : Table)
include h

theorem bindOptional_congr (columns : List Text) :
    Condition.bindOptional columns (some c) = Condition.bindOptional columns (some c') :=
  congrFun h columns

theorem select_congr : t.select (some c) = t.select (some c') := by
  rw [select, select, bindOptional_congr h]

theorem update_congr (assignments : List (Text × Value)) :
    t.update (some c) assignments = t.update (some c') assignments := by
  rw [update, update, bindOptional_congr h]

theorem delete_congr : t.delete (some c) = t.delete (some c') := by
  rw [delete, delete, bindOptional_congr h]

end Table

namespace Statement

theorem Akin.label_eq {s s' : Statement} (h : Akin s s') : s.label = s'.label := by
  cases h <;> rfl

end Statement

namespace Engine

open Statement

theorem perform_akin (id : Text) {s s' : Statement} (h : Akin s s') :
    perform id s = perform id s' := by
  cases h with
  | refl s => rfl
  | select t columns h =>
    rw [perform, perform]
    simp only [Table.select_congr h]
  | update t assignments h =>
    rw [perform, perform]
    simp only [Table.update_congr h]
  | delete t h =>
    rw [perform, perform]
    simp only [Table.delete_congr h]

theorem complete_akin (id : Text) {s s' : Statement} (h : Akin s s') :
    complete id s = complete id s' := by
  rw [complete, complete, perform_akin id h]

/-- A command that is turned down for a token too many. -/
def trailing (t : Text) (p : Nat) : Outcome :=
  ⟨.unknown, .error (CommandFault.expectedEnd (.token t p) : Failure)⟩

/-- Redundant parentheses in a command do not matter, but for the place that is shown of a token
too many. -/
theorem execute_parenthesized (e : Engine) (id : Option Text) {c c' : Text}
    (h : Parenthesized c c') : (e.execute c' id).2 = (e.execute c id).2 ∧
      ((e.execute c' id).1 = (e.execute c id).1 ∨
        ∃ t p p', (e.execute c id).1 = trailing t p ∧ (e.execute c' id).1 = trailing t p') := by
  have hreread := h.reread
  unfold execute
  cases e.session id with
  | error cause => exact ⟨rfl, .inl rfl⟩
  | ok session =>
    generalize ofCommand c = x at hreread
    generalize ofCommand c' = x' at hreread
    cases hreread with
    | error cause => exact ⟨rfl, .inl rfl⟩
    | ok h =>
      dsimp only
      rw [complete_akin _ h, h.label_eq]
      exact ⟨rfl, .inl rfl⟩
    | trailing t p p' => exact ⟨rfl, .inr ⟨t, p, p', rfl, rfl⟩⟩

/-- Operands of one group may be made a group of the same connective, anywhere in a condition, or be
taken out of one: the condition is bound to the same test of the rows, or to none for the same
reason. Parentheses around such operands, around a single one or around a whole condition change
neither the meaning of a text nor its fault, and a command with them leaves the same engine and has
the same outcome, but for the place that is shown of a token too many. -/
theorem grouping_irrelevant :
    (∀ c c', Condition.Regrouped c c' → ∀ columns, c'.bind columns = c.bind columns) ∧
    (∀ t t', Condition.Parenthesized t t' →
      (Condition.ofText t').map Condition.meaning = (Condition.ofText t).map Condition.meaning) ∧
    ∀ (e : Engine) (id : Option Text) (c c' : Text), Parenthesized c c' →
      (e.execute c' id).2 = (e.execute c id).2 ∧
        ((e.execute c' id).1 = (e.execute c id).1 ∨
          ∃ t p p', (e.execute c id).1 = trailing t p ∧ (e.execute c' id).1 = trailing t p') :=
  ⟨fun _ _ h columns => congrFun h.meaning_eq columns, fun _ _ h => h.map_meaning_eq,
    fun e id _ _ h => e.execute_parenthesized id h⟩

/-- A run of AND in a condition and in its text, and a whole condition in a command. -/
theorem grouping_irrelevant_of_runs :
    let comparison (column : Text) : Condition := .compare column .gt (Value.ofLiteral ['1'])
    let x := comparison ['x']
    let y := comparison ['y']
    let z := comparison ['z']
    let e := start ⟨['.', 't', 'a', 'b'], false, .whole, ['1']⟩ (Disk.empty ['r'])
    let select := "SELECT * FROM t WHERE x > 1 OR y > 1;".toList
    let select' := "SELECT * FROM t WHERE (x > 1 OR y > 1);".toList
    (Condition.group .and [x, .group .and [y, z]]).bind [['x'], ['y']] =
        (Condition.group .and [x, y, z]).bind [['x'], ['y']] ∧
      (Condition.ofText "x > 1 AND (y > 1 AND z > 1)".toList).map Condition.meaning =
        (Condition.ofText "x > 1 AND y > 1 AND z > 1".toList).map Condition.meaning ∧
      (e.execute select' none).2 = (e.execute select none).2 := by
  intro comparison x y z e select select'
  let primary (column : Text) : Condition.Primary :=
    .comparison ⟨.identifier column, .operator .gt, .number ['1'], rfl, rfl, rfl⟩
  have hcut : Token.Cut "x > 1 AND ".toList "y > 1 AND z > 1".toList []
      [⟨.identifier ['x'], 1⟩, ⟨.operator .gt, 3⟩, ⟨.number ['1'], 5⟩, ⟨.keyword .AND, 7⟩]
      [⟨.identifier ['y'], 11⟩, ⟨.operator .gt, 13⟩, ⟨.number ['1'], 15⟩, ⟨.keyword .AND, 17⟩,
        ⟨.identifier ['z'], 21⟩, ⟨.operator .gt, 23⟩, ⟨.number ['1'], 25⟩] [] :=
    ⟨by decide +kernel, by decide +kernel, by decide +kernel, by decide +kernel⟩
  have hcut' : Token.Cut "SELECT * FROM t WHERE ".toList "x > 1 OR y > 1".toList []
      ([⟨.keyword .SELECT, 1⟩, ⟨.mark .star, 8⟩, ⟨.keyword .FROM, 10⟩, ⟨.identifier ['t'], 15⟩] ++
        [⟨.keyword .WHERE, 17⟩])
      [⟨.identifier ['x'], 23⟩, ⟨.operator .gt, 25⟩, ⟨.number ['1'], 27⟩, ⟨.keyword .OR, 29⟩,
        ⟨.identifier ['y'], 32⟩, ⟨.operator .gt, 34⟩, ⟨.number ['1'], 36⟩] [] :=
    ⟨by decide +kernel, by decide +kernel, by decide +kernel, by decide +kernel⟩
  obtain ⟨htree, htext, hcommand⟩ := grouping_irrelevant
  refine ⟨htree _ _ (.nest .and [x] [y, z] []) _, htext _ _ (.intro hcut ⟨?_, .inl ?_⟩),
    (hcommand e none select select' (.intro (by decide +kernel) (by decide +kernel) hcut' rfl
      (by decide) ⟨nofun, .inr ?_⟩)).1⟩
  · rintro _ ⟨⟩
    exact .inl rfl
  · exact ⟨.and (primary ['y']) (.one (primary ['z'])), rfl⟩
  · exact ⟨.or (.one (primary ['x'])) (.one (.one (primary ['y']))), rfl, nofun, nofun⟩

end Engine

end Tabular
