import Tabular.Join
import Tabular.Proofs.Condition.LetterCase

/-!
# Columns in another letter case

Every operation on a table that is given columns to refer to comes to the same if they are given in
another letter case: the same table and the same rows, or no result in either.
-/

namespace Tabular

namespace Table

variable {c c' : Text} {condition condition' : Option Condition}

theorem agrees_index (t : Table) (h : Name.Alike c c') : (t.index c).Agrees Eq (t.index c') :=
  (h.resolve t.columns t.name).mapError _

theorem agrees_indexes (t : Table) {names names' : List Text}
    (h : List.Forall₂ Name.Alike names names') :
    (t.indexes names).Agrees Eq (t.indexes names') := by
  induction h with
  | nil => exact .ok rfl
  | cons hc _ ih => exact (t.agrees_index hc).then fun _ => ih.then fun _ => .ok rfl

theorem agrees_project (t : Table) (rows : List Row) {names names' : Option (List Text)}
    (h : Option.Rel (List.Forall₂ Name.Alike) names names') :
    (t.project rows names).Agrees Eq (t.project rows names') := by
  cases h with
  | none => exact .ok rfl
  | some h => exact (t.agrees_indexes h).then fun _ => .ok rfl

theorem agrees_dropColumn (t : Table) (h : Name.Alike c c') :
    (t.dropColumn c).Agrees Eq (t.dropColumn c') := by
  rw [dropColumn, dropColumn, h.isId]
  split
  · exact .error _ _
  · exact (t.agrees_index h).then fun _ => .ok rfl

theorem agrees_select (t : Table) (h : Option.Rel Condition.Alike condition condition') :
    (t.select condition).Agrees Eq (t.select condition') :=
  (Condition.agrees_bindOptional h t.columns).then fun _ => Except.agrees_refl _

theorem agrees_delete (t : Table) (h : Option.Rel Condition.Alike condition condition') :
    (t.delete condition).Agrees Eq (t.delete condition') :=
  (Condition.agrees_bindOptional h t.columns).then fun _ => Except.agrees_refl _

/-- Assignments of the same values to columns that differ in letter case. -/
def AlikeAssignments : List (Text × Value) → List (Text × Value) → Prop :=
  List.Forall₂ fun a a' => Name.Alike a.1 a'.1 ∧ a.2 = a'.2

theorem agrees_targets (t : Table) (before : List (Nat × Value))
    {assignments assignments' : List (Text × Value)} (h : AlikeAssignments assignments assignments') :
    (t.targets before assignments).Agrees Eq (t.targets before assignments') := by
  induction h generalizing before with
  | nil => exact .ok rfl
  | @cons a a' rest rest' ha _ ih =>
    obtain ⟨c, v⟩ := a
    obtain ⟨c', v'⟩ := a'
    obtain ⟨hc, rfl⟩ := ha
    rw [targets, targets, hc.isId]
    split
    · exact .error _ _
    refine (t.agrees_index hc).then fun i => ?_
    split
    · exact .error _ _
    · exact (Except.agrees_refl _).then fun w => ih _

theorem agrees_update (t : Table) {assignments assignments' : List (Text × Value)}
    (ha : AlikeAssignments assignments assignments')
    (h : Option.Rel Condition.Alike condition condition') :
    (t.update condition assignments).Agrees Eq (t.update condition' assignments') :=
  (t.agrees_targets [] ha).then fun _ =>
    (Condition.agrees_bindOptional h t.columns).then fun _ => Except.agrees_refl _

end Table

theorem Join.agrees_join (left right : Table) {l l' r r' : Text} (hl : Name.Alike l l')
    (hr : Name.Alike r r') : (join left right l r).Agrees Eq (join left right l' r') :=
  (left.agrees_index hl).then fun _ => (right.agrees_index hr).then fun _ => Except.agrees_refl _

end Tabular
