import Tabular.Proofs.Engine.Fidelity
import Tabular.Proofs.Engine.Sound
import Tabular.Proofs.Statement.Finding
import Tabular.Proofs.Table.Finding

/-!
# Texts that are stored and found

A table that a session has looked up stays at hand, whatever the disk is: what a statement makes of
it is what the next one finds. So a text that was inserted, or given to every row, can be asked for
in the next command.
-/

namespace Tabular

open Tabular.Action

namespace Catalog

variable {c c' : Catalog} {x t : Text} {d : Database} {u : Table} {edit : Edit}

theorem resident_of_load (h : (load x).run c = (.ok d, c')) : c'.resident.get? x = some d := by
  obtain ⟨_, _, -, h⟩ := run_bind_eq_ok h
  obtain ⟨tables, _, -, h⟩ := run_bind_eq_ok h
  obtain ⟨e, _, hadd, h⟩ := run_bind_eq_ok h
  obtain ⟨hadd, -⟩ := Prod.mk.inj hadd
  have hname := Database.addAll_name (Except.mapError_eq_ok_iff.1 hadd)
  cases h
  exact hname ▸ OrderedMap.get?_put_same ..

theorem resident_of_use (h : (use x).run c = (.ok d, c')) : c'.resident.get? x = some d := by
  obtain ⟨isThere, b, -, h⟩ := run_bind_eq_ok h
  cases isThere with
  | false =>
    obtain ⟨_, _, -, h⟩ := run_bind_eq_ok h
    cases h
  | true =>
    rw [if_pos rfl, run_bind_ok (run_look _ _)] at h
    cases hr : b.resident.get? x with
    | none =>
      rw [hr] at h
      exact resident_of_load h
    | some e =>
      rw [hr] at h
      cases h
      exact hr

/-- A database that was found is resident from then on. -/
theorem resident_of_database (h : (Catalog.database x).run c = (.ok d, c')) :
    c'.resident.get? x = some d := by
  cases hr : c.resident.get? x with
  | none =>
    rw [Catalog.database, run_bind_ok (run_look _ _), hr] at h
    exact resident_of_use h
  | some e =>
    rw [database_resident hr] at h
    cases h
    exact hr

theorem exists_resident_of_table (h : (table x t).run c = (.ok u, c')) :
    ∃ d, c'.resident.get? x = some d ∧ d.get t = .ok u := by
  obtain ⟨d, b, hd, h⟩ := run_bind_eq_ok h
  rw [check_run] at h
  obtain ⟨hget, rfl⟩ := Prod.mk.inj h
  exact ⟨d, resident_of_database hd, Except.mapError_eq_ok_iff.1 hget⟩

/-- A change is made known before it is written, and stays so if it cannot be written. -/
theorem resident_carry (hr : c.resident.get? x = some d) :
    (((edit.carry x).run c).2).resident.get? x = some (edit.table?.elim d d.replace) := by
  cases edit with
  | none => exact hr
  | whole new =>
    rw [Edit.carry, run_bind_ok (replace_run hr new)]
    exact OrderedMap.get?_put_same ..
  | row new row =>
    rw [Edit.carry, run_bind_ok (replace_run hr new), persistInsert, run_bind_ok (run_look _ _)]
    cases c.mode <;> exact OrderedMap.get?_put_same ..

/-- The table is at hand after a change of it, as the change made it. -/
theorem table_carry (hr : c.resident.get? x = some d) (hget : d.get t = .ok u)
    (hname : ∀ new ∈ edit.table?, Text.lower new.name = Text.lower t) :
    (table x t).run ((edit.carry x).run c).2 =
      (.ok (edit.table?.getD u), ((edit.carry x).run c).2) := by
  rw [table_resident (resident_carry hr)]
  refine congrArg (·, _) (Except.mapError_eq_ok_iff.2 ?_)
  cases hnew : edit.table? with
  | none => exact hget
  | some new =>
    refine Database.get_eq_ok_iff.2 ?_
    rw [← hname new hnew]
    exact OrderedMap.get?_put_same ..

end Catalog

namespace Engine

open Statement (insertCommand setCommand findCommand)

variable {e : Engine} {key : Option Text} {x t a s command : Text} {u : Table}
  {statement : Statement} {result : Result} {edit : Catalog.Edit}

/-- A statement about a table that is found leaves it, or what it makes of it, for the next one. -/
theorem Sound.table_execute (he : e.Sound) (hsel : e.selection (key.getD defaultId) = some x)
    (hw : Name.IsWord t) (hu : ((Catalog.table x t).run e.catalog).1 = .ok u)
    (hread : Statement.ofCommand command = .ok statement) (hs : statement.table? = some t)
    (hedit : statement.edit u = .ok (result, edit)) :
    let e' := (e.execute command key).2
    e'.selection (key.getD defaultId) = some x ∧
      (Catalog.table x t).run e'.catalog = (.ok (edit.table?.getD u), e'.catalog) := by
  have hx := he.chosen _ x hsel
  have hsound := (Catalog.ensures_table (p := True) hx.oneLine hw.lower_oneLine e.catalog
    he.catalog).1
  obtain ⟨r, c, hrun⟩ : ∃ r c, (Catalog.table x t).run e.catalog = (r, c) := ⟨_, _, rfl⟩
  rw [hrun] at hu hsound
  cases hu
  obtain ⟨d, hr, hget⟩ := Catalog.exists_resident_of_table hrun
  obtain ⟨hu, hname⟩ := hsound.resident x d hr _ u (Database.get_eq_ok_iff.1 hget)
  have hcarry : (Catalog.table x t).run ((edit.carry x).run c).2 = _ :=
    Catalog.table_carry hr hget fun new hnew => by
      rw [((Statement.edit_fits hu hedit).table hnew).2, hname]
  obtain ⟨r, c', hdone⟩ : ∃ r c', (edit.carry x).run c = (r, c') := ⟨_, _, rfl⟩
  rw [hdone] at hcarry
  obtain ⟨sess, hid⟩ := exists_session hsel
  have hperform := perform_table_run hs hsel hrun
  simp only [bind, Except.bind, hedit] at hperform
  rw [finish_run (e.withCatalog c) hdone] at hperform
  rw [execute_run hid hread hperform]
  cases r with
  | error f => exact ⟨hsel, hcarry⟩
  | ok done =>
    refine ⟨(selection_counted ..).trans hsel, ?_⟩
    simp only [Except.map, onSuccess, record_catalog, withSession_catalog]
    exact hcarry

/-- What a statement makes of a table that is found was worked out, if the statement succeeds. -/
theorem exists_edit_of_success (hsel : e.selection (key.getD defaultId) = some x)
    (hu : ((Catalog.table x t).run e.catalog).1 = .ok u)
    (hread : Statement.ofCommand command = .ok statement) (hs : statement.table? = some t)
    (hok : (e.execute command key).1.success) :
    ∃ result edit, statement.edit u = .ok (result, edit) := by
  cases hedit : statement.edit u with
  | ok r => exact ⟨r.1, r.2, rfl⟩
  | error f =>
    obtain ⟨sess, hid⟩ := exists_session hsel
    obtain ⟨r, c, hrun⟩ : ∃ r c, (Catalog.table x t).run e.catalog = (r, c) := ⟨_, _, rfl⟩
    rw [hrun] at hu
    cases hu
    have hperform := perform_table_run hs hsel hrun
    simp only [bind, Except.bind, hedit] at hperform
    rw [execute_run hid hread hperform] at hok
    cases hok

section Named

variable (ht : Name.IsWord t) (hkt : Name.isKeyword t = false) (ha : Name.isPlain a)
  (hka : Name.isKeyword a = false) (hq : '\'' ∉ s)
include ht hkt ha hka hq

/-- What is asked for in a table at hand is what the table selects. -/
theorem execute_findCommand {c : Catalog} {rows : List Row}
    (hsel : e.selection (key.getD defaultId) = some x)
    (hu : (Catalog.table x t).run e.catalog = (.ok u, c))
    (hrows : u.select (some (.compare a .eq (.string s))) = .ok rows) :
    (e.execute (findCommand t a s) key).1.result = .ok (.found u.columns rows) := by
  obtain ⟨sess, hid⟩ := exists_session hsel
  have hedit : (Statement.select t none (some (.compare a .eq (.string s)))).edit u =
      .ok (.found u.columns rows, .none) := Except.bind_eq_ok_iff.2 ⟨rows, hrows, rfl⟩
  rw [execute_eq_of_run hid (Statement.ofCommand_findCommand ht hkt ha hka hq),
    perform_table_run (s := .select t none (some (.compare a .eq (.string s)))) rfl hsel hu]
  simp only [bind, Except.bind, hedit]
  rfl

end Named

/-- Whatever happened to an engine, and from outside to its disk: in a table of the selected
database whose only column beside the id is `a`, a text that is stored can be found, unless it is
the word for null. After it was inserted, asking for it shows the new row, provided that no row has
an integer of too many digits there. After every row was given the text, asking for it shows every
row, even if the table could not be written. The word for null is found by neither. -/
theorem stored_text_found {o : Options} (ho : o.suffix ≠ []) (disk : Disk) (turns : List Turn)
    (key : Option Text) (x t a s : Text) (u : Table) :
    let e := (start o disk).takeAll turns
    let inserted := e.execute (insertCommand t [s]) key
    let updated := e.execute (setCommand t a s) key
    e.selection (key.getD defaultId) = some x → ((Catalog.table x t).run e.catalog).1 = .ok u →
      u.columns.tail = [a] → Name.IsWord t → Name.isKeyword t = false → Name.isPlain a →
      Name.isKeyword a = false → '\'' ∉ s → s.fitsField → ¬ Numeral.Overlong s →
      ((∀ row ∈ u.rows, ¬ Numeral.Overlong (row.getD 1 Value.null).text) → inserted.1.success →
        ∃ row new rows, u.insert [.string s] = .ok (row, new) ∧
          row.map (·.text) = [Text.ofNat u.nextId, s] ∧
          (inserted.2.execute (findCommand t a s) key).1.result = .ok (.found u.columns rows) ∧
          (row ∈ rows ↔ s ≠ Keyword.NULL.text)) ∧
      (updated.2.execute (findCommand t a s) key).1.result = .ok (.found u.columns
        (if s = Keyword.NULL.text then [] else (u.filled s).rows)) := by
  intro e inserted updated hsel hu hc ht hkt ha hka hq hfit hs
  have he : e.Sound := (start_sound ho disk).takeAll turns
  have hx := he.chosen _ x hsel
  have hus : u.Sound := ((Catalog.ensures_table (p := True) hx.oneLine ht.lower_oneLine e.catalog
    he.catalog).2.of_ok hu).toSound
  constructor
  · intro hrows hok
    have hread : Statement.ofCommand (insertCommand t [s]) = .ok (.insert t [.string s]) :=
      Statement.ofCommand_insertCommand ht hkt (by simpa using hq)
    obtain ⟨result, edit, hedit⟩ := exists_edit_of_success hsel hu hread rfl hok
    obtain ⟨hsel', hu'⟩ := he.table_execute hsel ht hu hread rfl hedit
    obtain ⟨⟨row, new⟩, hins, hmade⟩ := Except.bind_eq_ok_iff.1 hedit
    cases hmade
    obtain ⟨hcolumns, htexts, rows, hselect, hfound⟩ := hus.select_inserted hc hfit hs hrows hins
    refine ⟨row, new, rows, hins, htexts, ?_, hfound⟩
    rw [← hcolumns]
    exact execute_findCommand ht hkt ha hka hq hsel' hu' hselect
  · obtain ⟨hupdate, hselect⟩ := hus.update_filled hc hfit hs
    let edit : Catalog.Edit := if u.rows.length ≠ 0 then .whole (u.filled s) else .none
    have hedit : (Statement.update t [(a, .string s)] none).edit u = .ok (_, edit) :=
      Except.bind_eq_ok_iff.2 ⟨_, hupdate, rfl⟩
    -- A table without rows is left as it is, which is what the change would have made of it.
    have hmade : edit.table?.getD u = u.filled s := by
      by_cases hnone : u.rows = []
      · simp [edit, hnone, Catalog.Edit.table?, Table.filled_of_nil hnone]
      · simp [edit, hnone, Catalog.Edit.table?]
    obtain ⟨hsel', hu'⟩ := he.table_execute hsel ht hu
      (Statement.ofCommand_setCommand ht hkt ha hka hq) rfl hedit
    rw [hmade] at hu'
    exact execute_findCommand (u := u.filled s) ht hkt ha hka hq hsel' hu' hselect

/-- The word for null is stored as null, and null is not found by a text. -/
theorem null_text_not_found :
    let commands := ["CREATE DATABASE d;", "USE d;", "CREATE TABLE t (a);"]
    let e := (start ⟨['.', 't', 'a', 'b'], false, .whole, ['1']⟩ (Disk.empty ['r'])).takeAll
      (commands.map fun c => .happening (.event (.command c.toList none)))
    let s : Text := "NULL".toList
    let inserted := e.execute (insertCommand ['t'] [s]) none
    let updated := inserted.2.execute (setCommand ['t'] ['a'] s) none
    let find := findCommand ['t'] ['a'] s
    '\'' ∉ s ∧ s.fitsField ∧ ¬ Numeral.Overlong s ∧
      (inserted.1.success ∧ ((Catalog.table ['d'] ['t']).run inserted.2.catalog).1.toOption =
          some ⟨['t'], [Name.id, ['a']], [[⟨.number, ['1']⟩, .null]], 2⟩ ∧
        (inserted.2.execute find none).1.result.toOption = some (.found [Name.id, ['a']] [])) ∧
      (updated.1.success ∧
        (updated.2.execute find none).1.result.toOption = some (.found [Name.id, ['a']] [])) := by
  decide +kernel

/-- Digits are stored as a number, and in quotes they find it. -/
theorem stored_text_found_of_digits :
    let commands := ["CREATE DATABASE d;", "USE d;", "CREATE TABLE t (a);",
      "INSERT INTO t VALUES ('x');"]
    let e := (start ⟨['.', 't', 'a', 'b'], false, .whole, ['1']⟩ (Disk.empty ['r'])).takeAll
      (commands.map fun c => .happening (.event (.command c.toList none)))
    let s : Text := "007".toList
    let find := findCommand ['t'] ['a'] s
    (∃ row rows, row.map (·.text) = [['2'], s] ∧ row ∈ rows ∧
      ((e.execute (insertCommand ['t'] [s]) none).2.execute find none).1.result =
        .ok (.found [Name.id, ['a']] rows)) ∧
    ((e.execute (setCommand ['t'] ['a'] s) none).2.execute find none).1.result =
      .ok (.found [Name.id, ['a']] [[⟨.number, ['1']⟩, ⟨.number, s⟩]]) := by
  intro commands e s find
  let u : Table := ⟨['t'], [Name.id, ['a']], [[⟨.number, ['1']⟩, .string ['x']]], 2⟩
  have hsel : e.selection defaultId = some ['d'] := by decide +kernel
  have hu : ((Catalog.table ['d'] ['t']).run e.catalog).1.toOption = some u := by decide +kernel
  have hok : (e.execute (insertCommand ['t'] [s]) none).1.success := by decide +kernel
  obtain ⟨hinserted, hupdated⟩ := stored_text_found (by decide) (Disk.empty ['r']) _ none ['d']
    ['t'] ['a'] s u hsel (Except.toOption_eq_some_iff.1 hu) rfl ⟨by decide, by decide⟩ (by decide)
    (by decide) (by decide) (by decide) (by decide) (by decide)
  obtain ⟨row, -, rows, -, htexts, hfound, hmem⟩ := hinserted (by decide) hok
  exact ⟨⟨row, rows, htexts.trans (by decide), hmem.2 (by decide), hfound⟩, hupdated⟩

end Engine

end Tabular
