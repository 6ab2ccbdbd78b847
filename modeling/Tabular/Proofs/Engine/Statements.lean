import Tabular.Engine
import Tabular.Proofs.Catalog.Tables
import Tabular.Proofs.Table.Operations

/-!
# Statements of an engine

A statement about the rows or columns of one table finds the table, works out a result and a change
of the table, and carries the change out. The other statements are a piece of work of the catalog
and what they do to the sessions.
-/

namespace Tabular

/-- A row that is inserted into a sound table is a sound row under a new id. -/
theorem Catalog.Edit.fits_insert {old new : Table} {values : List Value} {row : Row}
    (ht : old.Sound) (h : old.insert values = .ok (row, new)) : (Edit.row new row).Fits old := by
  obtain ⟨cells, hlen, hst, hshort, hrow, hnew⟩ := Table.insert_eq_ok h
  have hw : cells.length + 1 = old.columns.length := by have := ht.columns_pos; omega
  refine ⟨Table.insert_sound ht h, ?_, ?_, _, hnew⟩
  · rw [hrow, ← hw]
    exact Table.soundRow_cons hshort hst
  · rw [hrow, Table.rowId_cons, Text.toNat_ofNat]
    intro hm
    obtain ⟨r, hr, he⟩ := List.mem_map.1 hm
    have := ht.ids_below r hr
    omega

namespace Statement

/-- The one table whose rows or columns the statement is about. -/
def table? : Statement → Option Text
  | alterTable t _ _ | insert t _ | select t _ _ | update t _ _ | delete t _ => some t
  | use _ | createDatabase _ | dropDatabase _ | createTable _ _ | dropTable _ | join _ _ _ _ => none

/-- The database that the statement names. -/
def database? : Statement → Option Text
  | use x | createDatabase x | dropDatabase x => some x
  | _ => none

/-- Is the statement about tables of the selected database? -/
def isLocal : Statement → Bool
  | use _ | createDatabase _ | dropDatabase _ => false
  | _ => true

theorem isLocal_of_table {s : Statement} {t : Text} (h : s.table? = some t) : s.isLocal := by
  cases s <;> first | rfl | cases h

/-- The result of the statement for a table, and the change that it asks for. A change that
concerns no row is none. -/
def edit (s : Statement) (old : Table) : Except Failure (Result × Catalog.Edit) :=
  match s with
  | alterTable t action column => do
    let new ← match action with
      | .add => old.addColumn column
      | .drop => old.dropColumn column
    return (.done [action.keyword.text, " column ", column, " on ", t], .whole new)
  | insert _ values => do
    let (row, new) ← old.insert values
    return (.changed 1 ["Inserted 1 row"], .row new row)
  | select _ columns condition => do
    let rows ← old.select condition
    let (header, rows) ← old.project rows columns
    return (.found header rows, .none)
  | update _ assignments condition => do
    let (n, new) ← old.update condition assignments
    return (.changed n ["Updated ", Text.ofNat n, " rows"], if n ≠ 0 then .whole new else .none)
  | delete _ condition => do
    let (n, new) ← old.delete condition
    return (.changed n ["Deleted ", Text.ofNat n, " rows"], if n ≠ 0 then .whole new else .none)
  | use _ | createDatabase _ | dropDatabase _ | createTable _ _ | dropTable _ | join _ _ _ _ =>
    return (.done [], .none)

/-- A change that a statement asks for keeps a sound table sound under its name. -/
theorem edit_fits {s : Statement} {old : Table} {result : Result} {change : Catalog.Edit}
    (ht : old.Sound) (h : s.edit old = .ok (result, change)) : change.Fits old := by
  cases s with
  | use d | createDatabase d | dropDatabase d | createTable t columns | dropTable t
  | join l r lc rc => cases h; trivial
  | alterTable t action column =>
    cases action with
    | add =>
      obtain ⟨new, hn, he⟩ := Except.bind_eq_ok_iff.1 h
      cases he
      exact ⟨Table.addColumn_sound ht hn, by rw [(Table.addColumn_eq_ok hn).2]⟩
    | drop =>
      obtain ⟨new, hn, he⟩ := Except.bind_eq_ok_iff.1 h
      cases he
      obtain ⟨-, i, -, hnew⟩ := Table.dropColumn_eq_ok hn
      exact ⟨Table.dropColumn_sound ht hn, by rw [hnew]⟩
  | insert t values =>
    obtain ⟨⟨row, new⟩, hn, he⟩ := Except.bind_eq_ok_iff.1 h
    cases he
    exact Catalog.Edit.fits_insert ht hn
  | select t columns condition =>
    obtain ⟨rows, -, h⟩ := Except.bind_eq_ok_iff.1 h
    obtain ⟨r, -, he⟩ := Except.bind_eq_ok_iff.1 h
    cases he
    trivial
  | update t assignments condition =>
    obtain ⟨⟨n, new⟩, hn, he⟩ := Except.bind_eq_ok_iff.1 h
    cases he
    split
    · exact ⟨Table.update_sound ht hn, (Table.update_rows ht hn).2.2.1⟩
    · trivial
  | delete t condition =>
    obtain ⟨⟨n, new⟩, hn, he⟩ := Except.bind_eq_ok_iff.1 h
    cases he
    obtain ⟨keep, -, -, hnew⟩ := Table.delete_eq_ok hn
    split
    · exact ⟨Table.delete_sound ht hn, by rw [hnew]⟩
    · trivial

/-- Only inserting asks for one more row. -/
theorem edit_row {s : Statement} {old t : Table} {result : Result} {row : Row}
    (h : s.edit old = .ok (result, .row t row)) :
    ∃ name values, s = insert name values ∧ old.insert values = .ok (row, t) := by
  cases s with
  | use d | createDatabase d | dropDatabase d | createTable t columns | dropTable t
  | join l r lc rc => cases h
  | alterTable t action column =>
    cases action <;> obtain ⟨new, -, he⟩ := Except.bind_eq_ok_iff.1 h <;> cases he
  | insert name values =>
    obtain ⟨⟨row, new⟩, hn, he⟩ := Except.bind_eq_ok_iff.1 h
    cases he
    exact ⟨name, values, rfl, hn⟩
  | select t columns condition =>
    obtain ⟨rows, -, h⟩ := Except.bind_eq_ok_iff.1 h
    obtain ⟨r, -, he⟩ := Except.bind_eq_ok_iff.1 h
    cases he
  | update t assignments condition =>
    obtain ⟨⟨n, new⟩, -, he⟩ := Except.bind_eq_ok_iff.1 h
    have he := congrArg Prod.snd (Except.ok.inj he)
    dsimp only at he
    split at he <;> cases he
  | delete t condition =>
    obtain ⟨⟨n, new⟩, -, he⟩ := Except.bind_eq_ok_iff.1 h
    have he := congrArg Prod.snd (Except.ok.inj he)
    dsimp only at he
    split at he <;> cases he

/-- What the statement gives and asks for when its change of a table is worked out. -/
inductive Asks (old : Table) : Statement → Result → Catalog.Edit → Prop
  | add {t column : Text} {new : Table} (made : old.addColumn column = .ok new) :
    Asks old (alterTable t .add column)
      (.done [AlterAction.add.keyword.text, " column ", column, " on ", t]) (.whole new)
  | drop {t column : Text} {new : Table} (made : old.dropColumn column = .ok new) :
    Asks old (alterTable t .drop column)
      (.done [AlterAction.drop.keyword.text, " column ", column, " on ", t]) (.whole new)
  | insert {t : Text} {values : List Value} {row : Row} {new : Table}
    (made : old.insert values = .ok (row, new)) :
    Asks old (insert t values) (.changed 1 ["Inserted 1 row"]) (.row new row)
  | select {t : Text} {columns : Option (List Text)} {condition : Option Condition}
    {result : Result} : Asks old (select t columns condition) result .none
  | update {t : Text} {assignments : List (Text × Value)} {condition : Option Condition} {n : Nat}
    {new : Table} (made : old.update condition assignments = .ok (n, new)) :
    Asks old (update t assignments condition) (.changed n ["Updated ", Text.ofNat n, " rows"])
      (if n ≠ 0 then .whole new else .none)
  | delete {t : Text} {condition : Option Condition} {n : Nat} {new : Table}
    (made : old.delete condition = .ok (n, new)) :
    Asks old (delete t condition) (.changed n ["Deleted ", Text.ofNat n, " rows"])
      (if n ≠ 0 then .whole new else .none)
  | nothing {s : Statement} {result : Result} (about : s.table? = none) : Asks old s result .none

theorem asks_of_edit {s : Statement} {old : Table} {result : Result} {change : Catalog.Edit}
    (h : s.edit old = .ok (result, change)) : s.Asks old result change := by
  cases s with
  | use d | createDatabase d | dropDatabase d | createTable t columns | dropTable t
  | join l r lc rc =>
    cases h
    exact .nothing rfl
  | alterTable t action column =>
    cases action with
    | add =>
      obtain ⟨new, hn, he⟩ := Except.bind_eq_ok_iff.1 h
      cases he
      exact .add hn
    | drop =>
      obtain ⟨new, hn, he⟩ := Except.bind_eq_ok_iff.1 h
      cases he
      exact .drop hn
  | insert t values =>
    obtain ⟨⟨row, new⟩, hn, he⟩ := Except.bind_eq_ok_iff.1 h
    cases he
    exact .insert hn
  | select t columns condition =>
    obtain ⟨rows, -, h⟩ := Except.bind_eq_ok_iff.1 h
    obtain ⟨r, -, he⟩ := Except.bind_eq_ok_iff.1 h
    cases he
    exact .select
  | update t assignments condition =>
    obtain ⟨⟨n, new⟩, hn, he⟩ := Except.bind_eq_ok_iff.1 h
    cases he
    exact .update hn
  | delete t condition =>
    obtain ⟨⟨n, new⟩, hn, he⟩ := Except.bind_eq_ok_iff.1 h
    cases he
    exact .delete hn

end Statement

namespace Engine

/-- The database that a session has selected. -/
def selection (e : Engine) (id : Text) : Option Text := (e.sessions.get? id).bind (·.database)

/-- The engine with another catalog. -/
def withCatalog (e : Engine) (c : Catalog) : Engine := { e with catalog := c }

@[simp] theorem withCatalog_catalog (e : Engine) (c : Catalog) :
    (e.withCatalog c).catalog = c := rfl

theorem onCatalog_eq {α : Type} {w : Catalog.Work α} {e : Engine} {r : Except Failure α}
    {c : Catalog} (h : w.run e.catalog = (r, c)) : (onCatalog w).run e = (r, e.withCatalog c) := by
  simp only [onCatalog, Action.run_within, h]
  rfl

theorem selected_none {e : Engine} {id : Text} (h : e.selection id = none) :
    (selected id).run e = (.error (.rejected .noDatabaseSelected), e) := by
  rw [selected, Action.run_bind_ok (Action.run_look _ _)]
  unfold selection at h
  rw [h]
  rfl

theorem selected_some {e : Engine} {id x : Text} (h : e.selection id = some x) :
    (selected id).run e = (.ok x, e) := by
  rw [selected, Action.run_bind_ok (Action.run_look _ _)]
  unfold selection at h
  rw [h]
  rfl

/-- Carry out a change that was worked out, and give the result. -/
def finish (x : Text) (result : Result) (edit : Catalog.Edit) : Work Result := do
  onCatalog (edit.carry x)
  return result

theorem finish_run {x : Text} {edit : Catalog.Edit} (e : Engine) {r : Except Failure Unit}
    {c : Catalog} (h : (edit.carry x).run e.catalog = (r, c)) (result : Result) :
    (finish x result edit).run e = (r.map fun _ => result, e.withCatalog c) := by
  rw [finish, Action.run_bind, onCatalog_eq h]
  cases r <;> rfl

theorem onCatalog_bind {α β : Type} (m : Catalog.Work α) (f : α → Catalog.Work β) (e : Engine) :
    (onCatalog (m >>= f)).run e = (onCatalog m >>= fun a => onCatalog (f a)).run e := by
  simp only [onCatalog, Action.run_within, Action.run_bind]
  cases m.run e.catalog with
  | mk r c => cases r <;> rfl

theorem keep_run (x : Text) (t : Table) (e : Engine) :
    (keep x t).run e = (onCatalog ((Catalog.Edit.whole t).carry x)).run e :=
  (onCatalog_bind _ _ e).symm

theorem finish_whole_run (x : Text) (result : Result) (t : Table) (e : Engine) :
    (finish x result (.whole t)).run e = (do keep x t; return result : Work Result).run e := by
  rw [finish, Action.run_bind, Action.run_bind, keep_run]

theorem finish_counted_run (x : Text) (result : Result) (n : Nat) (t : Table) (e : Engine) :
    (finish x result (if n ≠ 0 then .whole t else .none)).run e =
      (do if n ≠ 0 then keep x t
          return result : Work Result).run e := by
  by_cases hn : n = 0
  · subst hn
    rfl
  · have he : (if n ≠ 0 then Catalog.Edit.whole t else .none) = .whole t := if_pos hn
    rw [he, finish_whole_run]
    simp only [ne_eq, hn, not_false_eq_true]
    rfl

theorem finish_row_run (x : Text) (result : Result) (t : Table) (row : Row) (e : Engine) :
    (finish x result (.row t row)).run e =
      (do onCatalog (Catalog.replace x t)
          onCatalog (Catalog.persistInsert x t row)
          return result : Work Result).run e := by
  have h := onCatalog_bind (Catalog.replace x t) (fun _ => Catalog.persistInsert x t row) e
  rw [finish, Action.run_bind, Catalog.Edit.carry, h, Action.run_bind, Action.run_bind]
  cases (onCatalog (Catalog.replace x t)).run e with
  | mk r c => cases r <;> rfl

/-- A statement about one table works out what to do with it and does it. -/
theorem perform_edit {e e' : Engine} {id x t : Text} {s : Statement} {old : Table}
    (hs : s.table? = some t) (hsel : (selectedTable id t).run e = (.ok (x, old), e')) :
    (perform id s).run e =
      match s.edit old with
      | .error f => (.error f, e')
      | .ok (result, edit) => (finish x result edit).run e' := by
  cases s with
  | use d => cases hs
  | createDatabase d => cases hs
  | dropDatabase d => cases hs
  | createTable t columns => cases hs
  | dropTable t => cases hs
  | join l r lc rc => cases hs
  | alterTable t action column =>
    cases hs
    rw [perform, Action.run_bind_ok hsel]
    cases action with
    | add =>
      simp only [Statement.edit]
      generalize old.addColumn column = y
      cases y with
      | error f => rfl
      | ok new => exact (finish_whole_run ..).symm
    | drop =>
      simp only [Statement.edit]
      generalize old.dropColumn column = y
      cases y with
      | error f => rfl
      | ok new => exact (finish_whole_run ..).symm
  | insert t values =>
    cases hs
    rw [perform, Action.run_bind_ok hsel]
    simp only [Statement.edit]
    generalize old.insert values = y
    cases y with
    | error f => rfl
    | ok r => exact (finish_row_run ..).symm
  | select t columns condition =>
    cases hs
    rw [perform, Action.run_bind_ok hsel]
    simp only [Statement.edit]
    generalize old.select condition = y
    cases y with
    | error f => rfl
    | ok rows =>
      rw [Action.run_bind_ok (Action.run_give _ _), Action.run_bind, Action.run_give]
      simp only [bind, Except.bind]
      cases old.project rows columns <;> rfl
  | update t assignments condition =>
    cases hs
    rw [perform, Action.run_bind_ok hsel]
    simp only [Statement.edit]
    generalize old.update condition assignments = y
    cases y with
    | error f => rfl
    | ok r =>
      obtain ⟨n, new⟩ := r
      rw [Action.run_bind_ok (Action.run_give _ _)]
      exact (finish_counted_run ..).symm
  | delete t condition =>
    cases hs
    rw [perform, Action.run_bind_ok hsel]
    simp only [Statement.edit]
    generalize old.delete condition = y
    cases y with
    | error f => rfl
    | ok r =>
      obtain ⟨n, new⟩ := r
      rw [Action.run_bind_ok (Action.run_give _ _)]
      exact (finish_counted_run ..).symm

/-- Without a database, a statement about tables comes to nothing. -/
theorem perform_unselected {e : Engine} {id : Text} {s : Statement} (hs : s.isLocal)
    (h : e.selection id = none) :
    (perform id s).run e = (.error (.rejected .noDatabaseSelected), e) := by
  have hsel (t : Text) :
      (selectedTable id t).run e = (.error (.rejected .noDatabaseSelected), e) := by
    rw [selectedTable, Action.run_bind_error (selected_none h)]
  cases s with
  | use d => cases hs
  | createDatabase d => cases hs
  | dropDatabase d => cases hs
  | createTable t columns => exact Action.run_bind_error (selected_none h)
  | dropTable t => exact Action.run_bind_error (selected_none h)
  | join l r lc rc => exact Action.run_bind_error (selected_none h)
  | alterTable t action column => exact Action.run_bind_error (hsel t)
  | insert t values => exact Action.run_bind_error (hsel t)
  | select t columns condition => exact Action.run_bind_error (hsel t)
  | update t assignments condition => exact Action.run_bind_error (hsel t)
  | delete t condition => exact Action.run_bind_error (hsel t)

/-- A statement about one table finds the table before anything else. -/
theorem perform_table_run {e : Engine} {id x t : Text} {s : Statement} (hs : s.table? = some t)
    (h : e.selection id = some x) {r : Except Failure Table} {c : Catalog}
    (ht : (Catalog.table x t).run e.catalog = (r, c)) :
    (perform id s).run e =
      match r >>= s.edit with
      | .error f => (.error f, e.withCatalog c)
      | .ok (result, edit) => (finish x result edit).run (e.withCatalog c) := by
  have hsel : (selectedTable id t).run e = (r.map (x, ·), e.withCatalog c) := by
    rw [selectedTable, Action.run_bind_ok (selected_some h), Action.run_bind, onCatalog_eq ht]
    cases r <;> rfl
  cases r with
  | error f => cases s <;> cases hs <;> exact Action.run_bind_error hsel
  | ok old => exact perform_edit hs hsel

/-! ## Statements about whole databases and tables -/

/-- The engine with a session that has another state, if it is open. -/
def withSession (e : Engine) (id : Text) (f : Session → Session) : Engine :=
  match e.sessions.get? id with
  | some s => { e with sessions := e.sessions.put id (f s) }
  | none => e

/-- The engine with a database taken from the sessions that have it selected. -/
def forgetting (e : Engine) (x : Text) : Engine :=
  { e with
    sessions := e.sessions.map fun s =>
      if s.database = some x then { s with database := none } else s }

@[simp] theorem withSession_catalog (e : Engine) (id : Text) (f : Session → Session) :
    (e.withSession id f).catalog = e.catalog := by
  unfold withSession
  split <;> rfl

theorem withSession_sessions {e : Engine} {id : Text} {s : Session} (f : Session → Session)
    (h : e.sessions.get? id = some s) :
    (e.withSession id f).sessions.get? id = some (f s) := by
  simp [withSession, h]

@[simp] theorem forgetting_catalog (e : Engine) (x : Text) :
    (e.forgetting x).catalog = e.catalog := rfl

/-- The engine changed if something succeeded. -/
def onSuccess {α : Type} (e : Engine) (r : Except Failure α) (f : Engine → Engine) : Engine :=
  match r with
  | .ok _ => f e
  | .error _ => e

theorem perform_use_run {e : Engine} (id : Text) {x : Text} {r : Except Failure Database} {c : Catalog}
    (h : (Catalog.use x).run e.catalog = (r, c)) :
    (perform id (.use x)).run e =
      (r.map fun _ => .done ["Using database ", x],
        (e.withCatalog c).onSuccess r
          fun e => e.withSession id fun s => { s with database := some x }) := by
  rw [perform, Action.run_bind, onCatalog_eq h]
  cases r <;> rfl

theorem perform_createDatabase_run {e : Engine} (id : Text) {x : Text} {r : Except Failure Database}
    {c : Catalog} (h : (Catalog.createDatabase x).run e.catalog = (r, c)) :
    (perform id (.createDatabase x)).run e =
      (r.map fun _ => .done ["Created database ", x], e.withCatalog c) := by
  rw [perform, Action.run_bind, onCatalog_eq h]
  cases r <;> rfl

theorem perform_dropDatabase_run {e : Engine} (id : Text) {x : Text} {r : Except Failure Unit}
    {c : Catalog} (h : (Catalog.dropDatabase x).run e.catalog = (r, c)) :
    (perform id (.dropDatabase x)).run e =
      (r.map fun _ => .done ["Dropped database ", x],
        (e.withCatalog c).onSuccess r fun e => e.forgetting x) := by
  rw [perform, Action.run_bind, onCatalog_eq h]
  cases r <;> rfl

theorem perform_createTable_run {e : Engine} {id x t : Text} {columns : List Text}
    (hsel : e.selection id = some x) {r : Except Failure Table} {c : Catalog}
    (h : (Catalog.createTable x t columns).run e.catalog = (r, c)) :
    (perform id (.createTable t columns)).run e =
      (r.map fun _ => .done ["Created table ", t], e.withCatalog c) := by
  rw [perform, Action.run_bind_ok (selected_some hsel), Action.run_bind, onCatalog_eq h]
  cases r <;> rfl

theorem perform_dropTable_run {e : Engine} {id x t : Text} (hsel : e.selection id = some x)
    {r : Except Failure Unit} {c : Catalog}
    (h : (Catalog.dropTable x t).run e.catalog = (r, c)) :
    (perform id (.dropTable t)).run e =
      (r.map fun _ => .done ["Dropped table ", t], e.withCatalog c) := by
  rw [perform, Action.run_bind_ok (selected_some hsel), Action.run_bind, onCatalog_eq h]
  cases r <;> rfl

/-- A join looks for the right table only where there is a left one. -/
theorem perform_join_run {e : Engine} {id x left right leftColumn rightColumn : Text}
    (hsel : e.selection id = some x) {l r : Except Failure Table} {c c' : Catalog}
    (hl : (Catalog.table x left).run e.catalog = (l, c))
    (hr : (Catalog.table x right).run c = (r, c')) :
    (perform id (.join left right leftColumn rightColumn)).run e =
      ((do let l ← l
           let r ← r
           let p ← Join.join l r leftColumn rightColumn
           return .found p.1 p.2),
        (e.withCatalog c).onSuccess l fun e => e.withCatalog c') := by
  rw [perform, Action.run_bind_ok (selected_some hsel), Action.run_bind, onCatalog_eq hl]
  cases l with
  | error f => rfl
  | ok l =>
    simp only
    rw [Action.run_bind, onCatalog_eq (e := e.withCatalog c) hr]
    cases r with
    | error f => rfl
    | ok r =>
      simp only
      rw [Action.run_bind, Action.run_give]
      simp only [bind, Except.bind, onSuccess]
      cases Join.join l r leftColumn rightColumn <;> rfl

end Engine

end Tabular
