import Tabular.Proofs.Catalog.Lined
import Tabular.Proofs.Engine.Appending
import Tabular.Proofs.Engine.Weather

/-!
# Memory and files after failed writes

A change that could not be written stays in memory, so that the file of a table may differ from the
table. The next write of the whole table makes them agree again. A row appended does not: the two
agree after it exactly if they agreed before.
-/

namespace Tabular

namespace Statement

/-- Does the statement, when it succeeds with a result, write the table that it is about? -/
def writes (s : Statement) (result : Result) : Bool :=
  match s with
  | insert _ _ | alterTable _ _ _ => true
  | update _ _ _ | delete _ _ => result.affected ≠ 0
  | use _ | createDatabase _ | dropDatabase _ | createTable _ _ | dropTable _ | select _ _ _
  | join _ _ _ _ => false

def isInsert : Statement → Bool
  | insert _ _ => true
  | _ => false

variable {s : Statement} {old : Table} {result : Result} {change : Catalog.Edit}

theorem table?_ne_none_of_writes (h : s.writes result) : s.table? ≠ none := by
  cases s <;> first | exact Option.some_ne_none _ | cases h

/-- A statement that writes asks for a change, and only inserting for one more row. -/
theorem change_of_writes (h : s.edit old = .ok (result, change)) (hw : s.writes result) :
    (∃ new, change = .whole new ∧ ¬ s.isInsert) ∨ ∃ new row, change = .row new row ∧ s.isInsert := by
  cases asks_of_edit h with
  | add => exact .inl ⟨_, rfl, nofun⟩
  | drop => exact .inl ⟨_, rfl, nofun⟩
  | insert => exact .inr ⟨_, _, rfl, rfl⟩
  | select => cases hw
  | update => exact .inl ⟨_, if_pos (of_decide_eq_true hw), nofun⟩
  | delete => exact .inl ⟨_, if_pos (of_decide_eq_true hw), nofun⟩
  | nothing about => exact absurd about (table?_ne_none_of_writes hw)

end Statement

namespace Catalog

/-- What the file of a table holds is the columns and rows that the resident table has. -/
def FileAgrees (c : Catalog) (x t : Text) : Prop :=
  ∃ d u v, c.resident.get? x = some d ∧ d.tables.get? (Text.lower t) = some u ∧
    c.archive.fetch x u.name = .ok v ∧ v.columns = u.columns ∧ v.rows = u.rows

variable {c c' : Catalog} {x t : Text} {d : Database} {old new : Table} {disk : Disk}

/-- A table and its file agree exactly if what is in the file reads as the table. -/
theorem fileAgrees_iff (hr : c.resident.get? x = some d)
    (hu : d.tables.get? (Text.lower t) = some old) {content : Bytes}
    (hg : c.archive.disk.entries.get? [x, c.archive.fileName old.name] = some (.file content)) :
    c.FileAgrees x t ↔ Archive.ReadsAs content old.columns old.rows := by
  constructor
  · rintro ⟨d', u, v, hr', hu', hf, hcols, hrows⟩
    cases hr.symm.trans hr'
    cases hu.symm.trans hu'
    obtain ⟨-, -, content', hg', hreads⟩ := Archive.fetch_eq_ok_iff.1 hf
    cases hg.symm.trans hg'
    exact hcols ▸ hrows ▸ hreads
  · intro hreads
    exact ⟨d, old, ⟨old.name, old.columns, old.rows, Table.followingId old.rows⟩, hr, hu,
      Archive.fetch_eq_ok_iff.2 ⟨rfl, rfl, content, hg, hreads⟩, rfl, rfl⟩

/-- A table whose file is written agrees with it exactly if the new content reads as the table. -/
theorem Becomes.fileAgrees_iff {content : Bytes} (hname : Text.lower new.name = Text.lower t)
    (h : c.Becomes (c.archive.putFile x new.name content).disk
      (c.resident.put x (d.replace new)) c') :
    c'.FileAgrees x t ↔ Archive.ReadsAs content new.columns new.rows := by
  have hr : c'.resident.get? x = some (d.replace new) := by
    rw [h.resident, OrderedMap.get?_put_same]
  have hget : (d.replace new).tables.get? (Text.lower t) = some new := by
    rw [← hname]
    exact OrderedMap.get?_put_same ..
  have hfile : c'.archive.disk.entries.get? [x, c'.archive.fileName new.name] =
      some (.file content) := by
    rw [h.disk, Archive.fileName_congr h.suffix]
    exact OrderedMap.get?_put_same ..
  exact Catalog.fileAgrees_iff hr hget hfile

/-- Once a table is written, its file agrees with it, but for a row that was appended to a file that
did not agree with the table before. -/
theorem Carried.fileAgrees_iff (hc : c.Sane) (hl : c.archive.disk.Lined) (ht : Name.IsWord t)
    (hr : c.resident.get? x = some d) (hold : d.tables.get? (Text.lower t) = some old)
    {s : Statement} {result : Result} {edit : Edit} (hw : s.edit old = .ok (result, edit))
    (hwrites : s.writes result) (h : c.Carried x edit disk)
    (hb : c.Becomes disk (edit.made x d c.resident) c') :
    c'.FileAgrees x t ↔ (c.mode = .append → s.isInsert → c.FileAgrees x t) := by
  have hchange := Statement.change_of_writes hw hwrites
  cases h with
  | none =>
    obtain ⟨_, he, -⟩ | ⟨_, _, he, -⟩ := hchange <;> cases he
  | @whole new writable =>
    have hnew := (hc.holdable_edit hr hold hw rfl).1
    refine iff_of_true ?_ fun _ hins => ?_
    · exact (Becomes.fileAgrees_iff hnew.key_eq hb).2 (Archive.readsAs_encode hnew.sound)
    · obtain ⟨_, -, hnot⟩ | ⟨_, _, he, -⟩ := hchange
      · exact absurd hins hnot
      · cases he
  | @row new _ mode writable =>
    have hnew := (hc.holdable_edit hr hold hw rfl).1
    refine iff_of_true ?_ fun hm => ?_
    · exact (Becomes.fileAgrees_iff hnew.key_eq hb).2 (Archive.readsAs_encode hnew.sound)
    · cases mode.symm.trans hm
  | @line new row content mode file =>
    have hins : s.isInsert := by
      obtain ⟨_, he, -⟩ | ⟨_, _, -, hins⟩ := hchange
      · cases he
      · exact hins
    have hnew := (hc.holdable_edit hr hold hw rfl).1
    obtain ⟨-, hsound, hfresh, n, rfl⟩ :=
      Statement.edit_fits (hc.held x d hr _ old hold).sound hw
    -- The line goes behind what the file holds, so that it reads as the new rows exactly if it read
    -- as the old ones.
    have hended := hl x _ content (c.archive.head?_fileName_ne ht hnew.key_eq) file
    rw [Becomes.fileAgrees_iff hnew.key_eq hb, Catalog.fileAgrees_iff hr hold file,
      Archive.readsAs_append_row_iff hended hsound hfresh]
    exact ⟨fun h _ _ => h, fun h => h mode hins⟩

end Catalog

namespace Engine

variable {e e' : Engine} {id x t : Text} {s : Statement}

/-! ## What every run keeps -/

theorem Steady.lined_execute (h : e.Steady) (hl : e.disk.Lined) (command : Text)
    (id : Option Text) : (e.execute command id).2.disk.Lined := by
  obtain ⟨disk, r, turns, hcases⟩ := h.execute_catalog command id
  have hentries := congrArg Disk.entries turns.disk
  obtain ⟨-, rfl, -⟩ | ⟨s, -, ⟨result, -, does⟩ | ⟨f, -, does⟩⟩ := hcases
  · exact hl.congr hentries
  · exact (does.lined h.sane hl).congr hentries
  · exact (does.lined h.sane hl).congr hentries

theorem Steady.lined_meet (h : e.Steady) (hl : e.disk.Lined) (v : Happening) :
    (e.meet v).disk.Lined := by
  cases v with
  | weather w => exact hl
  | event v =>
    cases v with
    | command text id => exact h.lined_execute hl text id
    | openSession => exact hl
    | closeSession id =>
      exact hl.congr (congrArg (·.archive.disk.entries) (closeSession_catalog e id))
    | restart =>
      have hroot : e.disk.entries.get? [] = some .directory := h.sane.settled.proper.root
      exact hl.congr (congrArg Disk.entries (restart_disk hroot))

/-- Files end with line breaks, and tables are written in the same way, whatever happens. -/
theorem Steady.lined_meetAll (h : e.Steady) (hl : e.disk.Lined) (hs : List Happening) :
    (e.meetAll hs).disk.Lined := by
  induction hs generalizing e with
  | nil => exact hl
  | cons v hs ih => exact ih (h.meet v) (h.lined_meet hl v)

theorem Steady.mode_meet (h : e.Steady) (v : Happening) :
    (e.meet v).catalog.mode = e.catalog.mode := by
  cases v with
  | weather w => rfl
  | event v =>
    cases v with
    | command text id =>
      obtain ⟨disk, r, turns, -⟩ := h.execute_catalog text id
      exact turns.mode
    | openSession => rfl
    | closeSession id => exact congrArg Catalog.mode (closeSession_catalog e id)
    | restart => rfl

theorem Steady.mode_meetAll (h : e.Steady) (hs : List Happening) :
    (e.meetAll hs).catalog.mode = e.catalog.mode := by
  induction hs generalizing e with
  | nil => rfl
  | cons v hs ih => exact (ih (h.meet v)).trans (h.mode_meet v)

/-! ## Writing after failed writes -/

/-- Whatever failed before, once a command is answered that wrote a table, the file of the table
holds the columns and rows that the table has. Only a row that was appended leaves the two as they
were: they agree after it exactly if they agreed before it. -/
theorem persisted_agrees_iff {o : Options} (ho : o.Plain) (root : Text) (hs : List Happening)
    {command : Text} {id : Option Text} {result : Result}
    (hread : Statement.ofCommand command = .ok s) (habout : s.table? = some t)
    (hsel : ((start o (Disk.empty root)).meetAll hs).selection (id.getD defaultId) = some x)
    (hok : (((start o (Disk.empty root)).meetAll hs).execute command id).1.result = .ok result)
    (hwrites : s.writes result) :
    let e := (start o (Disk.empty root)).meetAll hs
    let e' := (e.execute command id).2
    e'.catalog.FileAgrees x t ↔
      (o.mode = .append → s.isInsert → e.catalog.FileAgrees x t) := by
  intro e e'
  have hstart : (start o (Disk.empty root)).Steady :=
    start_steady_of_proper ho (Disk.empty_proper root)
  have h : e.Steady := hstart.meetAll hs
  have hl : e.disk.Lined := hstart.lined_meetAll (by
    rw [start_disk o (Disk.empty_proper root).root]
    exact .empty root) hs
  have hmode : e.catalog.mode = o.mode := hstart.mode_meetAll hs
  obtain ⟨disk, r, turns, ⟨⟨f, hout⟩, -⟩ | ⟨s', hs', ⟨result', hout, does⟩ | ⟨f, hout, -⟩⟩⟩ :=
    h.execute_catalog command id
  · cases (congrArg Outcome.result hout).symm.trans hok
  · cases hread.symm.trans hs'
    cases (congrArg Outcome.result hout).symm.trans hok
    have ht : Name.IsWord t := by
      have hn := Statement.ofCommand_named hread
      cases s <;> cases habout <;> exact hn
    cases does with
    | edit about chosen held there worked written =>
      cases about.symm.trans habout
      cases chosen.symm.trans hsel
      have hiff := written.fileAgrees_iff h.sane hl ht held there worked hwrites turns
      rw [← hmode]
      exact hiff
    | _ => cases habout
  · cases (congrArg Outcome.result hout).symm.trans hok

/-- An update writes the row that could not be appended before it. -/
theorem persisted_agrees_of_update :
    let o : Options := ⟨['.', 't', 'a', 'b'], false, .append, ['1']⟩
    let full : Weather := ⟨[none, some .diskFull], ['2'], by simp [Errno.saysMissing], by decide⟩
    let hs : List Happening :=
      [.event (.command "CREATE DATABASE d;".toList none), .event (.command "USE d;".toList none),
        .event (.command "CREATE TABLE t (a);".toList none), .weather full,
        .event (.command "INSERT INTO t VALUES ('x');".toList none)]
    let e := (start o (Disk.empty ['r'])).meetAll hs
    let update := e.execute "UPDATE t SET a = 'z';".toList none
    (e.catalog.archive.fetch ['d'] ['t']).toOption.map (·.rows) = some [] ∧ update.1.success ∧
      update.2.catalog.FileAgrees ['d'] ['t'] := by
  intro o full hs e update
  have hread : Statement.ofCommand "UPDATE t SET a = 'z';".toList =
      .ok (.update ['t'] [(['a'], ⟨.string, ['z']⟩)] none) := by cbv
  have hok : update.1.result = .ok (.changed 1 ["Updated ", ['1'], " rows"]) := by decide +kernel
  have hsel : e.selection ((none : Option Text).getD defaultId) = some ['d'] := by decide +kernel
  exact ⟨by decide +kernel, by decide +kernel,
    (persisted_agrees_iff (o := o) ⟨by decide, by decide, by decide⟩ ['r'] hs hread rfl
      hsel hok rfl).2 fun _ h => by cases h⟩

/-- A row that could not be appended, and then one that could. -/
theorem appended_after_failure :
    let o : Options := ⟨['.', 't', 'a', 'b'], false, .append, ['1']⟩
    let full : Weather := ⟨[none, some .diskFull], ['2'], by simp [Errno.saysMissing], by decide⟩
    let e := (start o (Disk.empty ['r'])).meetAll
      [.event (.command "CREATE DATABASE d;".toList none), .event (.command "USE d;".toList none),
        .event (.command "CREATE TABLE t (a);".toList none), .weather full,
        .event (.command "INSERT INTO t VALUES ('x');".toList none)]
    let first := e.execute "INSERT INTO t VALUES ('y');".toList none
    first.1.success ∧ (first.2.execute "SELECT * FROM t;".toList none).1.response =
      "[OK]\nid\ta\n1\tx\n2\ty".toList ∧
    (first.2.catalog.archive.fetch ['d'] ['t']).toOption.map (·.rows) =
      some [[⟨.number, ['2']⟩, ⟨.string, ['y']⟩]] := by
  decide +kernel

end Engine

end Tabular
