import Tabular.OrderedMap
import Tabular.Table

/-!
# Databases

A database is a set of tables found by name in any letter case. It keeps the order in which the
tables came.
-/

namespace Tabular

structure Database where
  name : Text
  tables : OrderedMap Text Table
  deriving DecidableEq

namespace Database

/-- A database without tables. -/
def empty (name : Text) : Database := ⟨name, .empty⟩

/-- The table that a name refers to. -/
def get (d : Database) (table : Text) : Except Rejection Table :=
  match d.tables.get? (Text.lower table) with
  | some t => .ok t
  | none => .error (.unknownTable (Text.lower table))

def has (d : Database) (table : Text) : Bool := d.tables.has (Text.lower table)

/-- One more table, whose name must be new. -/
def add (d : Database) (t : Table) : Except Rejection Database :=
  if d.has t.name then .error (.duplicateTable (Text.lower t.name))
  else .ok { d with tables := d.tables.put (Text.lower t.name) t }

/-- Tables added one after the other. -/
def addAll (d : Database) : List Table → Except Rejection Database
  | [] => .ok d
  | t :: ts => do (← d.add t).addAll ts

/-- Put a table in the place of the one that has its name. -/
def replace (d : Database) (t : Table) : Database :=
  { d with tables := d.tables.put (Text.lower t.name) t }

/-- Remove the table that a name refers to. -/
def remove (d : Database) (table : Text) : Except Rejection (Table × Database) := do
  let t ← d.get table
  return (t, { d with tables := d.tables.erase (Text.lower table) })

/-- The names of the tables in small letters, sorted. -/
def tableNames (d : Database) : List Text := Text.sorted d.tables.keys

theorem get_add {d e : Database} {t : Table} (h : d.add t = .ok e) : e.get t.name = .ok t := by
  unfold add at h
  split at h
  · cases h
  · cases h
    simp [get]

theorem has_iff_get {d : Database} {table : Text} : d.has table ↔ ∃ t, d.get table = .ok t := by
  unfold has get OrderedMap.has
  cases d.tables.get? (Text.lower table) <;> simp

end Database

end Tabular
