import Tabular.Condition

/-!
# Tables

A table is a list of columns, the id first, and a list of rows, each with an id of its own. Ids
are given out in increasing order and never changed. Every operation checks all of its input
before it makes the table that it returns.
-/

namespace Tabular

structure Table where
  name : Text
  columns : List Text
  rows : List Row
  nextId : Nat
  deriving DecidableEq, Repr

namespace Table

/-- The value as it reads back from a file, which has no room for tabs and line breaks. -/
def stored (v : Value) : Except Failure Value :=
  if v.text.any fun c => c == '\t' || c == '\r' || c == '\n' then
    .error (Rejection.invalidValue v.text)
  else .ok (Value.ofField v.text)

/-- Check the name of a new column next to the columns that are there. -/
def checkNew (action : ColumnAction) (columns : List Text) (name : Text) :
    Except Rejection Unit := do
  let _ ← Name.validate "column" name
  if Name.isId name then .error (.reservedColumn action)
  else if (Name.find? columns name).isSome then .error (.duplicateColumn name)
  else .ok ()

/-- Check the names of new columns one after the other. -/
def checkColumns (before : List Text) : List Text → Except Rejection Unit
  | [] => .ok ()
  | c :: cs => do
    checkNew .create before c
    checkColumns (before ++ [c]) cs

/-- An empty table with the id column and the given ones. -/
def create (name : Text) (columns : List Text) : Except Rejection Table := do
  checkColumns [] columns
  return ⟨name, Name.id :: columns, [], 1⟩

/-- The place of a column. -/
def index (t : Table) (column : Text) : Except Failure Nat :=
  (Name.resolve t.columns column t.name).mapError Failure.rejected

/-- A new last column, null in every row. -/
def addColumn (t : Table) (column : Text) : Except Failure Table := do
  (checkNew .add t.columns column).mapError Failure.rejected
  return { t with columns := t.columns ++ [column], rows := t.rows.map (· ++ [Value.null]) }

/-- Remove a column and its cell from every row. -/
def dropColumn (t : Table) (column : Text) : Except Failure Table :=
  if Name.isId column then .error (Rejection.reservedColumn .drop)
  else do
    let i ← t.index column
    return { t with columns := t.columns.eraseIdx i, rows := t.rows.map (·.eraseIdx i) }

/-- The stored form of values, from left to right. -/
def storedAll : List Value → Except Failure (List Value)
  | [] => .ok []
  | v :: vs => do
    let w ← stored v
    let ws ← storedAll vs
    return w :: ws

/-- A new last row with the next id before the values. -/
def insert (t : Table) (values : List Value) : Except Failure (Row × Table) :=
  if values.length ≠ t.columns.length - 1 then
    .error (Rejection.valueCount (t.columns.length - 1) values.length)
  else do
    let cells ← storedAll values
    let id ← (Value.ofNat t.nextId).mapError Failure.number
    return (id :: cells, { t with rows := t.rows ++ [id :: cells], nextId := t.nextId + 1 })

/-- The rows that a test accepts, in order. -/
def accepted (p : Predicate) : List Row → Except Failure (List Row)
  | [] => .ok []
  | row :: rows => do
    let yes ← p row
    let rest ← accepted p rows
    return if yes then row :: rest else rest

/-- What a test says of each row. -/
def verdicts (p : Predicate) : List Row → Except Failure (List Bool)
  | [] => .ok []
  | row :: rows => do
    let yes ← p row
    let rest ← verdicts p rows
    return yes :: rest

/-- The rows that satisfy a condition. -/
def select (t : Table) (condition : Option Condition) : Except Failure (List Row) := do
  accepted (← Condition.bindOptional t.columns condition) t.rows

/-- The cells that assignments change, in stored form. No two may have the same column. -/
def targets (t : Table) (before : List (Nat × Value)) :
    List (Text × Value) → Except Failure (List (Nat × Value))
  | [] => .ok before
  | (column, v) :: rest =>
    if Name.isId column then .error (Rejection.reservedColumn .update)
    else do
      let i ← t.index column
      if before.any (·.1 == i) then .error (Rejection.duplicateColumn column)
      else do
        let v ← stored v
        targets t (before ++ [(i, v)]) rest

/-- A row with some of its cells changed. -/
def change (cells : List (Nat × Value)) (row : Row) : Row :=
  cells.foldl (fun row cell => row.set cell.1 cell.2) row

/-- Change the rows that satisfy a condition, and count them. All rows are judged before any is
changed. -/
def update (t : Table) (condition : Option Condition) (assignments : List (Text × Value)) :
    Except Failure (Nat × Table) := do
  let cells ← t.targets [] assignments
  let p ← Condition.bindOptional t.columns condition
  let yes ← verdicts p t.rows
  let rows := List.zipWith (fun row yes => if yes then change cells row else row) t.rows yes
  return (yes.count true, { t with rows := rows })

/-- Remove the rows that satisfy a condition, and count them. -/
def delete (t : Table) (condition : Option Condition) : Except Failure (Nat × Table) := do
  let p ← Condition.bindOptional t.columns condition
  let keep ← accepted (fun row => (p row).map (! ·)) t.rows
  return (t.rows.length - keep.length, { t with rows := keep })

/-- The places of columns, from left to right. -/
def indexes (t : Table) : List Text → Except Failure (List Nat)
  | [] => .ok []
  | c :: cs => do
    let i ← t.index c
    let is ← indexes t cs
    return i :: is

/-- The header and the rows under the named columns, or under all. -/
def project (t : Table) (rows : List Row) :
    Option (List Text) → Except Failure (List Text × List Row)
  | none => .ok (t.columns, rows)
  | some names => do
    let is ← t.indexes names
    return (is.map (t.columns.getD · []),
      rows.map fun row => is.map (row.getD · Value.null))

/-- The id of a row as a number. -/
def rowId (row : Row) : Nat := Text.toNat (row.headD Value.null).text

/-- The name, columns and number of rows in one line. -/
def summary (t : Table) : Message :=
  ["Table(", Text.quoted t.name, ", columns=", Text.quotedList t.columns, ", rows=",
    Text.ofNat t.rows.length, ")"]

end Table

end Tabular
