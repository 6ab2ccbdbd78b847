import Tabular.Proofs.Engine.Appending
import Tabular.Proofs.Engine.Weather

/-!
# Failed changes of a schema

A statement that makes, changes or removes a database or a table, and fails, leaves every resident
database as it was, and whoever looks at tables next finds what was there before. An `ALTER TABLE`
whose write fails is the one exception: its change is there all the same.
-/

namespace Tabular

namespace Statement

/-- Does the statement make, change or remove a database or a table? -/
def isSchema : Statement → Bool
  | createDatabase _ | dropDatabase _ | createTable _ _ | dropTable _ | alterTable _ _ _ => true
  | use _ | insert _ _ | select _ _ _ | update _ _ _ | delete _ _ | join _ _ _ _ => false

def isAlter : Statement → Bool
  | alterTable _ _ _ => true
  | _ => false

/-- A column is added or dropped in one table. -/
theorem not_isAlter_of_table? {s : Statement} (h : s.table? = none) : ¬ s.isAlter := by
  cases s <;> first | exact Bool.false_ne_true | cases h

end Statement

/-! ## Changes of columns -/

namespace Table

variable {t new : Table} {column : Text} {f : Failure}

theorem not_ofWriting_checkNew {action : ColumnAction} {columns : List Text} {cause : Rejection}
    (h : checkNew action columns column = .error cause) : ¬ (Failure.rejected cause).OfWriting := by
  unfold checkNew Name.validate at h
  split at h
  · cases h
    exact id
  · split at h
    · cases h
      exact id
    · simp only [bind, Except.bind] at h
      split at h
      · cases h
        exact id
      · split at h <;> cases h
        exact id

theorem not_ofWriting_addColumn (h : t.addColumn column = .error f) : ¬ f.OfWriting := by
  unfold addColumn at h
  cases hc : checkNew .add t.columns column with
  | ok u =>
    rw [hc] at h
    cases h
  | error cause =>
    rw [hc] at h
    cases h
    exact not_ofWriting_checkNew hc

theorem not_ofWriting_dropColumn (h : t.dropColumn column = .error f) : ¬ f.OfWriting := by
  unfold dropColumn index Name.resolve at h
  split at h
  · cases h
    exact id
  · cases hi : Name.find? t.columns column with
    | none =>
      rw [hi] at h
      cases h
      exact id
    | some i =>
      rw [hi] at h
      cases h

/-- A column more or a column less is another list of columns. -/
theorem addColumn_columns_ne (h : t.addColumn column = .ok new) : new.columns ≠ t.columns := by
  obtain ⟨-, rfl⟩ := addColumn_eq_ok h
  simp

theorem dropColumn_columns_ne (h : t.dropColumn column = .ok new) : new.columns ≠ t.columns := by
  obtain ⟨-, i, hi, rfl⟩ := dropColumn_eq_ok h
  have hlt := Name.find?_lt (index_eq_ok_iff.1 hi)
  intro heq
  have hlen := congrArg List.length heq
  rw [List.length_eraseIdx_of_lt hlt] at hlen
  omega

/-- Without a condition every row is selected. -/
theorem select_none (t : Table) : t.select none = .ok t.rows := by
  have h : ∀ rows : List Row, accepted (fun _ => .ok true) rows = .ok rows := by
    intro rows
    induction rows with
    | nil => rfl
    | cons row rows ih =>
      rw [accepted, ih]
      rfl
  exact h t.rows

end Table

namespace Statement

variable {t column : Text} {action : AlterAction} {old : Table}

theorem not_ofWriting_alterTable {f : Failure}
    (h : (alterTable t action column).edit old = .error f) : ¬ f.OfWriting := by
  cases action with
  | add =>
    cases hn : old.addColumn column with
    | ok new => simp [edit, hn, bind, Except.bind, pure, Except.pure] at h
    | error cause =>
      simp only [edit, hn, bind, Except.bind, Except.error.injEq] at h
      exact h ▸ Table.not_ofWriting_addColumn hn
  | drop =>
    cases hn : old.dropColumn column with
    | ok new => simp [edit, hn, bind, Except.bind, pure, Except.pure] at h
    | error cause =>
      simp only [edit, hn, bind, Except.bind, Except.error.injEq] at h
      exact h ▸ Table.not_ofWriting_dropColumn hn

theorem alterTable_columns_ne {result : Result} {change : Catalog.Edit} {new : Table}
    (h : (alterTable t action column).edit old = .ok (result, change))
    (hn : change.table? = some new) : new.columns ≠ old.columns := by
  cases asks_of_edit h with
  | add made =>
    cases hn
    exact Table.addColumn_columns_ne made
  | drop made =>
    cases hn
    exact Table.dropColumn_columns_ne made
  | nothing about => cases about

end Statement

namespace Engine

variable {e e' : Engine} {id x t : Text} {s : Statement} {f : Failure}

/-- Whoever looks at tables finds the same. -/
def AnswersAlike (e e' : Engine) : Prop :=
  ∀ id s, s.label.hasRows → ((perform id s).run e').1 = ((perform id s).run e).1

/-! ## Looking at tables -/

/-- A selection finds what is in the table. -/
theorem perform_select_run (hsel : e.selection id = some x) {d : Database}
    (hr : e.catalog.resident.get? x = some d) {columns : Option (List Text)}
    {condition : Option Condition} :
    ((perform id (.select t columns condition)).run e).1 =
      (((d.get t).mapError Failure.rejected) >>= (Statement.select t columns condition).edit).map
        (·.1) := by
  rw [perform_table_run rfl hsel (Catalog.table_resident hr t)]
  cases hp : ((d.get t).mapError Failure.rejected) >>= (Statement.select t columns condition).edit with
  | error f => rfl
  | ok p =>
    obtain ⟨result, edit⟩ := p
    obtain ⟨old, -, hedit⟩ := Except.bind_eq_ok_iff.1 hp
    cases Statement.asks_of_edit hedit with
    | select => rfl
    | nothing about => cases about

/-- Without a condition and without columns, a selection finds the whole table. -/
theorem perform_select_whole (hsel : e.selection id = some x) {d : Database} {u : Table}
    (hr : e.catalog.resident.get? x = some d) (hu : d.tables.get? (Text.lower t) = some u) :
    ((perform id (.select t none none)).run e).1 = .ok (.found u.columns u.rows) := by
  have hedit : (Statement.select t none none).edit u = .ok (.found u.columns u.rows, .none) :=
    Except.bind_eq_ok_iff.2 ⟨u.rows, u.select_none, rfl⟩
  rw [perform_select_run hsel hr, Database.get_eq_ok_iff.2 hu]
  simp only [Except.mapError, bind, Except.bind, hedit, Except.map]

/-- What is found depends on the resident databases and on what the sessions have selected. -/
theorem Steady.answersAlike (h : e.Steady) (hr : e'.catalog.resident = e.catalog.resident)
    (hs : e'.sessions = e.sessions) : AnswersAlike e e' := by
  intro id s hrows
  have hsel : e'.selection id = e.selection id := by rw [selection, selection, hs]
  cases hx : e.selection id with
  | none =>
    have hlocal : s.isLocal := by cases s <;> first | rfl | cases hrows
    rw [perform_unselected hlocal hx, perform_unselected hlocal (hsel.trans hx)]
  | some x =>
    obtain ⟨-, d, hd⟩ := h.exists_database hx
    have hd' : e'.catalog.resident.get? x = some d := by rw [hr, hd]
    cases s with
    | select t columns condition =>
      rw [perform_select_run hx hd, perform_select_run (hsel.trans hx) hd']
    | join left right leftColumn rightColumn =>
      rw [perform_join_run hx (Catalog.table_resident hd left) (Catalog.table_resident hd right),
        perform_join_run (hsel.trans hx) (Catalog.table_resident hd' left)
          (Catalog.table_resident hd' right)]
    | _ => cases hrows

/-! ## What a failure leaves -/

/-- A changed list of columns is seen in the resident database and by whoever looks at the table. -/
theorem not_answersAlike {d : Database} {old new : Table} (hsel : e.selection id = some x)
    (hsel' : e'.selection id = some x) (hr : e.catalog.resident.get? x = some d)
    (hold : d.tables.get? (Text.lower t) = some old) (hname : Text.lower new.name = Text.lower t)
    (hres : e'.catalog.resident = e.catalog.resident.put x (d.replace new))
    (hne : new.columns ≠ old.columns) :
    e'.catalog.resident ≠ e.catalog.resident ∧ ¬ AnswersAlike e e' := by
  have hr' : e'.catalog.resident.get? x = some (d.replace new) := by
    rw [hres, OrderedMap.get?_put_same]
  have hnew : (d.replace new).tables.get? (Text.lower t) = some new := by
    rw [← hname]
    exact OrderedMap.get?_put_same ..
  refine ⟨fun heq => ?_, fun halike => ?_⟩
  · rw [heq, hr] at hr'
    rw [← Option.some.inj hr', hold] at hnew
    exact hne (congrArg Table.columns (Option.some.inj hnew).symm)
  · have h := halike id (.select t none none) rfl
    rw [perform_select_whole hsel hr hold, perform_select_whole hsel' hr' hnew] at h
    exact hne (congrArg Result.header (Except.ok.inj h))

/-- A schema statement that fails leaves the resident databases as they were, unless it is an
`ALTER TABLE` that could not be written. -/
theorem Steady.schema_fails (h : e.Steady) (hs : s.isSchema) (hc : e.Comes id s (.error f) e') :
    e'.catalog.resident = e.catalog.resident ∧ ¬ (s.isAlter ∧ f.OfWriting) ∨
      (s.isAlter ∧ f.OfWriting) ∧
        e'.catalog.resident ≠ e.catalog.resident ∧ ¬ AnswersAlike e e' := by
  cases hc with | @fails f e' disk r honest turns does sessions =>
  have hres := turns.resident
  -- Only the change of a table is made here before it is written, and of the statements about a
  -- schema only `ALTER TABLE` asks for one.
  cases does with
  | unchanged about =>
    exact .inl ⟨hres, fun ha => Statement.not_isAlter_of_table? about ha.1⟩
  | emptied => exact .inl ⟨hres, nofun⟩
  | draft => exact .inl ⟨hres, nofun⟩
  | @unworked s t f about cause =>
    cases s <;> cases hs <;> cases about
    refine .inl ⟨hres, fun ha => ?_⟩
    obtain rfl | ⟨_, rfl⟩ | ⟨old, hold⟩ := cause
    · exact ha.2
    · exact ha.2
    · exact Statement.not_ofWriting_alterTable hold ha.2
  | @edit s x t d old new result edit f disk about chosen held there worked made left =>
    cases s <;> cases hs <;> cases about
    obtain ⟨hold, hname⟩ := h.sane.holdable_edit held there worked made
    refine .inr ⟨⟨rfl, ?_⟩, ?_⟩
    · cases left with
      | unwritten writing => exact writing
      | draft writing => exact writing
      | line writing => exact writing
      | missing =>
        obtain ⟨_, _, hins, _⟩ := Statement.edit_row worked
        cases hins
    · refine not_answersAlike chosen ?_ held there hold.key_eq hres
        (Statement.alterTable_columns_ne worked made)
      rw [selection, sessions]
      exact chosen

/-- After every run in any weather, a schema statement that fails leaves every resident database,
with the columns and rows of its tables, as it was, exactly if it is not an `ALTER TABLE` whose
write failed; and exactly then every look at tables finds what it would have found without it. -/
theorem failed_schema_unchanged_iff {o : Options} {disk : Disk} (ho : o.Plain) (hd : disk.Proper)
    (hs : List Happening) {command : Text} {id : Option Text}
    (hread : Statement.ofCommand command = .ok s) (hschema : s.isSchema)
    (hf : (((start o disk).meetAll hs).execute command id).1.result = .error f) :
    let e := (start o disk).meetAll hs
    let e' := (e.execute command id).2
    (e'.catalog.resident = e.catalog.resident ↔ ¬ (s.isAlter ∧ f.OfWriting)) ∧
      (AnswersAlike e e' ↔ ¬ (s.isAlter ∧ f.OfWriting)) := by
  intro e e'
  have h : e.Steady := (start_steady_of_proper ho hd).meetAll hs
  have hkeeps : e'.catalog.resident = e.catalog.resident → e'.sessions = e.sessions →
      ¬ (s.isAlter ∧ f.OfWriting) →
      (e'.catalog.resident = e.catalog.resident ↔ ¬ (s.isAlter ∧ f.OfWriting)) ∧
        (AnswersAlike e e' ↔ ¬ (s.isAlter ∧ f.OfWriting)) := fun hr hses hn =>
    ⟨iff_of_true hr hn, iff_of_true (h.answersAlike hr hses) hn⟩
  obtain ⟨⟨cause, hwhy, hout⟩, hc, hses⟩ | ⟨s', r, e'', hread', hc, hex⟩ :=
    h.execute_cases command id
  · refine hkeeps (congrArg (·.resident) hc) hses fun hn => ?_
    obtain hsess | hnot := hwhy
    · have hcause : f = .rejected cause := Except.error.inj ((hf.symm.trans (congrArg _ hout)))
      rw [session] at hsess
      split at hsess <;> cases hsess
      rw [hcause] at hn
      exact hn.2
    · cases hread.symm.trans hnot
  · cases hread.symm.trans hread'
    have hr : r = .error f := (congrArg (fun o => o.1.result) hex).symm.trans hf
    subst hr
    have he : e' = e''.record s.label false := congrArg Prod.snd hex
    have hc' : e.Comes (id.getD defaultId) s (.error f) e' := by
      rw [he]
      cases hc with | fails honest turns does sessions => exact .fails honest turns does sessions
    obtain ⟨hres, hn⟩ | ⟨hn, hres, ha⟩ := h.schema_fails hschema hc'
    · cases hc' with | fails _ _ _ sessions => exact hkeeps hres sessions hn
    · exact ⟨iff_of_false hres (not_not_intro hn), iff_of_false ha (not_not_intro hn)⟩

/-- There is no room for the file with one more column. -/
theorem failed_schema_shows_of_full_disk :
    let o : Options := ⟨['.', 't', 'a', 'b'], false, .whole, ['1']⟩
    let disk := handWritten "id\ta\n1\tx\n".toList
    let full : Weather := ⟨[some .diskFull], ['2'], by simp [Errno.saysMissing], by decide⟩
    let e := (start o disk).meetAll [.event (.command "USE d;".toList none), .weather full]
    let e' := (e.execute "ALTER TABLE t ADD b;".toList none).2
    e'.disk.entries = e.disk.entries ∧ e'.catalog.resident ≠ e.catalog.resident ∧
      ¬ AnswersAlike e e' := by
  intro o disk full e e'
  have hread : Statement.ofCommand "ALTER TABLE t ADD b;".toList =
      .ok (.alterTable ['t'] .add ['b']) := by cbv
  let p : Text := "r/d/.t.2.tmp".toList
  have hf : (e.execute "ALTER TABLE t ADD b;".toList none).1.result =
      .error (.system (.refused .diskFull p none)) := by decide +kernel
  have h := failed_schema_unchanged_iff (o := o)
    ⟨by decide, by decide, by decide⟩ (handWritten_proper _)
    [.event (.command "USE d;".toList none), .weather full] hread rfl hf
  exact ⟨by decide +kernel, fun hr => h.1.1 hr ⟨rfl, trivial⟩, fun ha => h.2.1 ha ⟨rfl, trivial⟩⟩

/-- The name of a table may be so long that its file has a name that fits, but a temporary file for
it has not. A column that could not be added is shown all the same. -/
theorem unwritten_column_shown :
    let o : Options := ⟨['.', 't', 'a', 'b'], false, .whole, "12345678".toList⟩
    let t : Text := List.replicate 246 'a'
    let disk := ((Disk.empty ['r']).put [['d']] .directory).put [['d'], t ++ o.suffix]
      (.file (Utf8.encode "id\ta\n1\tx\n".toList))
    let look := "SELECT * FROM ".toList ++ t ++ [';']
    let e := (start o disk).after (.command "USE d;".toList none)
    let alter := e.execute ("ALTER TABLE ".toList ++ t ++ " ADD b;".toList) none
    alter.1.success = false ∧ alter.2.disk.entries = e.disk.entries ∧
      (e.execute look none).1.response = "[OK]\nid\ta\n1\tx".toList ∧
      (alter.2.execute look none).1.response = "[OK]\nid\ta\tb\n1\tx\tNULL".toList := by
  decide +kernel

end Engine

end Tabular
