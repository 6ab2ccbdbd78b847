import Tabular.Table

/-!
# Joins

The inner join of two tables on a column of each: every row of the first with every row of the
second whose cell is equal, in the order of the first table and then of the second. Results are
numbered from one and leave out the ids of the rows they come from.
-/

namespace Tabular.Join

/-- The columns of a table after the id, each with the table's name before it. -/
def qualified (t : Table) : List Text := t.columns.tail.map fun c => t.name ++ ['.'] ++ c

/-- The rows whose cell at a place equals a key. -/
def partners (key : Value) (place : Nat) : List Row → Except Failure (List Row)
  | [] => .ok []
  | row :: rows => do
    let yes ← (key.equals (row.getD place Value.null)).mapError Failure.number
    let rest ← partners key place rows
    return if yes then row :: rest else rest

/-- The joined rows without ids. -/
def pairs (left : List Row) (i : Nat) (right : List Row) (j : Nat) :
    Except Failure (List Row) :=
  match left with
  | [] => .ok []
  | row :: rows => do
    let these ← partners (row.getD i Value.null) j right
    let rest ← pairs rows i right j
    return these.map (row.tail ++ ·.tail) ++ rest

/-- Rows numbered from `n`. -/
def numbered (n : Nat) : List Row → List Row
  | [] => []
  | row :: rows => (⟨.number, Text.ofNat n⟩ :: row) :: numbered (n + 1) rows

/-- The header and the rows of a join. -/
def join (left right : Table) (leftColumn rightColumn : Text) :
    Except Failure (List Text × List Row) := do
  let i ← left.index leftColumn
  let j ← right.index rightColumn
  let rows ← pairs left.rows i right.rows j
  return (Name.id :: (qualified left ++ qualified right), numbered 1 rows)

@[simp] theorem numbered_length (n : Nat) (rows : List Row) :
    (numbered n rows).length = rows.length := by
  induction rows generalizing n with
  | nil => rfl
  | cons row rows ih => simp [numbered, ih]

end Tabular.Join
