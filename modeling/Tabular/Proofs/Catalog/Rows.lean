import Tabular.Proofs.Catalog.Standing
import Tabular.Proofs.Catalog.WriteThrough
import Tabular.Proofs.Table.Rows

/-!
# Rows of standing tables

A statement strikes a row of the table that it is about if it changes or removes the row, or changes
the columns. A row that is not struck is in the table that the statement makes of this one, just as
it was.
-/

namespace Tabular

/-- Does the statement change or remove the row of an id, or the columns, of its table? -/
def Statement.strikes (u : Table) (id : Nat) : Statement → Bool
  | alterTable _ _ _ => true
  | update _ _ condition | delete _ condition => u.strikes id condition
  | use _ | createDatabase _ | dropDatabase _ | createTable _ _ | dropTable _ | insert _ _
  | select _ _ _ | join _ _ _ _ => false

theorem Statement.Turns.mem_rows {s : Statement} {u v : Table} {row : Row} (h : s.Turns u v)
    (hrow : row ∈ u.rows) (hs : s.strikes u (Table.rowId row) = false) : row ∈ v.rows := by
  obtain ⟨result, change, hedit, hn⟩ := h
  cases asks_of_edit hedit with
  | add => cases hs
  | drop => cases hs
  | insert made =>
    cases hn
    obtain ⟨-, -, -, -, -, rfl⟩ := Table.insert_eq_ok made
    exact List.mem_append_left _ hrow
  | select => cases hn
  | update made =>
    split at hn <;> cases hn
    exact Table.mem_of_update made hrow hs
  | delete made =>
    split at hn <;> cases hn
    exact Table.mem_of_delete made hrow hs
  | nothing => cases hn

namespace Catalog

variable {c : Catalog} {x t : Text} {d : Database} {u : Table} {row : Row} {book : Book}

/-- The row is in a table that stands. -/
def Bears (c : Catalog) (x t : Text) (row : Row) : Prop := ∃ u, c.Stands x t u ∧ row ∈ u.rows

theorem Bears.kept (h : c.Bears x t row) : c.archive.isKept x := by
  obtain ⟨u, hu, -⟩ := h
  exact hu.kept

/-- Resident tables of a catalog that is written through stand. -/
theorem Written.stands (h : c.Written book) (hr : c.resident.get? x = some d)
    (hu : d.tables.get? t = some u) : c.Stands x t u := by
  have hx := h.resident x d hr
  have hkeeps := h.holds.databases x d hx
  obtain ⟨hname, hword⟩ := hkeeps.table_name t u hu
  exact
    { kept := h.holds.isKept_iff.2 (by rw [hx]; rfl)
      sound := hkeeps.table_sound t u hu
      name := hname
      small := hword.small
      file := by
        rw [h.holds.get?_fileName h.plain hx, hu]
        rfl
      resident := by
        intro d' hd'
        cases hr.symm.trans hd'
        exact hu
      away := fun hn => by cases hr.symm.trans hn }

/-- A row can be inserted into a resident table wherever its values can be stored. -/
theorem Written.exists_carry_insert (h : c.Written book) (hr : c.resident.get? x = some d)
    (hu : d.tables.get? t = some u) {values : List Value} {new : Table}
    (hins : u.insert values = .ok (row, new)) :
    ∃ c', ((Edit.row new row).carry x).run c = (.ok (), c') := by
  have hsound := (h.stands hr hu).sound
  obtain ⟨c', -, hrun, -⟩ := h.follows_carry hr hu (Edit.fits_insert hsound hins)
  exact ⟨c', hrun⟩

end Catalog

end Tabular
