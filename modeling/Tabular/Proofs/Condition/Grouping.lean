import Tabular.Proofs.Except
import Tabular.Condition

/-!
# Grouping

AND and OR are judged from left to right and no further than needed, and a comparison may fail, at
binding or on a row. All the same each of them is associative: some of the operands of a group may
be made a group of the same connective, or such a group be replaced by its operands, anywhere in a
condition, and it means the same.
-/

namespace Tabular.Condition

/-- What a condition comes to for a list of columns: its test of the rows, or why it has none. -/
def meaning (c : Condition) (columns : List Text) : Except Failure Predicate := c.bind columns

/-- The second condition is the first one with some operands of one group, one next to the other,
made a group of the same connective. -/
inductive Regrouped : Condition → Condition → Prop
  | nest (op : Connective) (front run back : List Condition) :
    Regrouped (.group op (front ++ run ++ back)) (.group op (front ++ .group op run :: back))
  | inside (op : Connective) (front back : List Condition) {c c' : Condition}
    (h : Regrouped c c') :
    Regrouped (.group op (front ++ c :: back)) (.group op (front ++ c' :: back))

/-! ## Tests -/

section Tests

variable (op : Connective) (p : Predicate) (ps qs : List Predicate)

theorem allOf_cons (row : Row) :
    allOf (p :: ps) row = p row >>= fun yes => if yes then allOf ps row else .ok false := rfl

theorem anyOf_cons (row : Row) :
    anyOf (p :: ps) row = p row >>= fun yes => if yes then .ok true else anyOf ps row := rfl

theorem allOf_append (row : Row) : allOf (ps ++ qs) row =
    allOf ps row >>= fun yes => if yes then allOf qs row else .ok false := by
  induction ps with
  | nil => rfl
  | cons p ps ih =>
    rw [List.cons_append, allOf_cons, allOf_cons, ih, bind_assoc]
    refine bind_congr fun yes => ?_
    cases yes <;> rfl

theorem anyOf_append (row : Row) : anyOf (ps ++ qs) row =
    anyOf ps row >>= fun yes => if yes then .ok true else anyOf qs row := by
  induction ps with
  | nil => rfl
  | cons p ps ih =>
    rw [List.cons_append, anyOf_cons, anyOf_cons, ih, bind_assoc]
    refine bind_congr fun yes => ?_
    cases yes <;> rfl

/-- A test alone is the test of its group. -/
theorem combine_singleton : combine op [p] = p := by
  funext row
  cases op
  · rw [combine, allOf_cons]
    cases p row with
    | error e => rfl
    | ok yes => cases yes <;> rfl
  · rw [combine, anyOf_cons]
    cases p row with
    | error e => rfl
    | ok yes => cases yes <;> rfl

/-- The tests of a group may be judged in two halves. -/
theorem combine_append : combine op (ps ++ qs) = combine op [combine op ps, combine op qs] := by
  funext row
  have hlast := congrFun (combine_singleton op (combine op qs)) row
  cases op
  · rw [combine] at hlast ⊢
    rw [allOf_append, allOf_cons, hlast]
  · rw [combine] at hlast ⊢
    rw [anyOf_append, anyOf_cons, hlast]

end Tests

/-! ## Groups -/

section Groups

variable (op : Connective) (columns : List Text) (c : Condition) (cs ds : List Condition)

theorem bindAll_append : bindAll columns (cs ++ ds) = do
    let ps ← bindAll columns cs
    let qs ← bindAll columns ds
    return ps ++ qs := by
  induction cs with
  | nil => exact (bind_pure (bindAll columns ds)).symm
  | cons c cs ih =>
    rw [List.cons_append, bindAll, ih, bindAll]
    simp only [bind_assoc, pure_bind, List.cons_append]

theorem bind_group : (group op cs).bind columns = do return combine op (← bindAll columns cs) := by
  rw [Condition.bind]

/-- A group is bound from the groups of its two halves. -/
theorem bind_group_append : (group op (cs ++ ds)).bind columns = do
    let p ← (group op cs).bind columns
    let q ← (group op ds).bind columns
    return combine op [p, q] := by
  rw [bind_group, bindAll_append, bind_group, bind_group]
  simp only [bind_assoc, pure_bind, combine_append]

theorem meaning_group_singleton : (group op [c]).meaning = c.meaning := by
  funext columns
  rw [meaning, bind_group, bindAll, bindAll]
  change ((c.bind columns >>= fun p => pure [p]) >>= fun ps => pure (combine op ps)) = c.bind columns
  simp only [bind_assoc, pure_bind, combine_singleton, bind_pure]

theorem meaning_grouped : (grouped op cs).meaning = (group op cs).meaning := by
  match cs with
  | [] => rfl
  | [c] => exact (meaning_group_singleton op c).symm
  | _ :: _ :: _ => rfl

end Groups

variable {op : Connective} {c c' : Condition} {cs cs' ds ds' : List Condition}

/-- The halves of a group may be replaced by what means the same. -/
theorem meaning_group_append (hc : (group op cs).meaning = (group op cs').meaning)
    (hd : (group op ds).meaning = (group op ds').meaning) :
    (group op (cs ++ ds)).meaning = (group op (cs' ++ ds')).meaning := by
  funext columns
  have hc : (group op cs).bind columns = (group op cs').bind columns := congrFun hc columns
  have hd : (group op ds).bind columns = (group op ds').bind columns := congrFun hd columns
  rw [meaning, meaning, bind_group_append, bind_group_append, hc, hd]

/-- So may its last operand. -/
theorem meaning_group_concat (hc : (group op cs).meaning = (group op cs').meaning)
    (hd : c.meaning = c'.meaning) :
    (group op (cs ++ [c])).meaning = (group op (cs' ++ [c'])).meaning := by
  refine meaning_group_append hc ?_
  rw [meaning_group_singleton, meaning_group_singleton, hd]

/-- A group at the end of a group of the same connective. -/
theorem meaning_group_concat_group (op : Connective) (cs ds : List Condition) :
    (group op (cs ++ [group op ds])).meaning = (group op (cs ++ ds)).meaning :=
  meaning_group_append rfl (meaning_group_singleton op _)

theorem Regrouped.meaning_eq (h : Regrouped c c') : c'.meaning = c.meaning := by
  induction h with
  | nest op front run back =>
    -- The run and its group are compared behind the front, where they are the last operands.
    rw [List.append_cons front]
    exact meaning_group_append (meaning_group_concat_group op front run) rfl
  | @inside op front back c c' h ih =>
    rw [List.append_cons front c, List.append_cons front c']
    exact meaning_group_append (meaning_group_concat rfl ih) rfl

end Tabular.Condition
