import Tabular.Proofs.Archive.OneFile
import Tabular.Proofs.Engine.Appending
import Tabular.Proofs.Engine.Calm

/-!
# Dropped tables

A table that was dropped is gone after a restart exactly if its file is named in small letters. A
table whose file is spelled otherwise is found in any letter case, but the file that is removed for
it is the one in small letters, which is not there: the table comes back, and if another table of
the name was created since, the database cannot be used any more.
-/

namespace Tabular

namespace Archive

variable {a : Archive} {x t : Text} {d d' : Database} {old new : Table}

/-- A table of a database is listed in the letter case of its file. -/
theorem lower_of_database (hs : a.suffix ≠ []) (hd : a.database x = .ok d)
    (hold : d.tables.get? t = some old) :
    Text.lower old.name = t ∧ old.name ∈ a.tableNames x := by
  obtain ⟨-, -, -, hget⟩ := database_eq_ok hs hd
  obtain ⟨hlower, hfetch⟩ := (hget t old).1 hold
  obtain ⟨-, -, content, hfile, -⟩ := fetch_eq_ok_iff.1 hfetch
  exact ⟨hlower, (mem_tableNames_iff hs).2 ⟨content, hfile⟩⟩

/-- The file that is named in small letters goes, and its table with it if it is named so. -/
theorem get?_database_withoutFile (hs : a.suffix ≠ []) (ht : Name.IsWord t)
    (hd : a.database x = .ok d) (hold : d.tables.get? t = some old) :
    ∃ d', (a.withoutFile x t).database x = .ok d' ∧
      ∀ k, d'.tables.get? k = if k = t ∧ old.name = t then none else d.tables.get? k := by
  obtain ⟨d', hd', hget⟩ := database_withoutFile hs hd t
  refine ⟨d', hd', fun k => Option.ext fun u => ?_⟩
  rw [hget k u]
  by_cases hk : k = t
  · subst hk
    rw [hold]
    by_cases hn : old.name = k
    · simp only [hn, and_self, if_true, reduceCtorEq, iff_false, not_and, Option.some.injEq]
      rintro hne rfl
      exact hne hn
    · simp only [hn, and_false, if_false, Option.some.injEq, and_iff_right_iff_imp]
      rintro rfl
      exact hn
  · simp only [hk, false_and, if_false, and_iff_right_iff_imp]
    rintro hu rfl
    exact hk ((lower_of_database hs hd hu).1.symm.trans ht.small)

/-- A table that is written anew in small letters is found unless it still has its former file. -/
theorem exists_database_recreated_iff (hs : a.suffix ≠ []) (ht : Name.IsWord new.name)
    (hd : a.database x = .ok d) (hold : d.tables.get? new.name = some old) (hnew : new.Sound) :
    (∃ d', ((a.withoutFile x new.name).putFile x new.name (Utf8.encode new.encode)).database x =
      .ok d') ↔ old.name = new.name := by
  obtain ⟨d₁, hd₁, -⟩ := database_withoutFile hs hd new.name
  obtain ⟨hlower, hlisted⟩ := lower_of_database hs hd hold
  rw [exists_database_putFile_iff (a := a.withoutFile x new.name) hs hd₁ hnew, ht.small]
  simp only [mem_tableNames_withoutFile_iff hs]
  constructor
  · intro hfree
    by_contra hne
    exact hne (hfree old.name ⟨hne, hlisted⟩ hlower)
  · rintro hn u ⟨-, hu⟩ he
    obtain ⟨hinj, -⟩ := (exists_database_iff hs).1 ⟨d, hd⟩
    rw [← hn]
    exact hinj u hu old.name hlisted (he.trans hlower.symm)

/-- It is found then as it was written, among the other tables. -/
theorem get?_database_recreated (hs : a.suffix ≠ []) (ht : Name.IsWord new.name)
    (hd : a.database x = .ok d) (hold : d.tables.get? new.name = some old) (hnew : new.Sound)
    (hid : new.nextId = Table.followingId new.rows)
    (hd' : ((a.withoutFile x new.name).putFile x new.name (Utf8.encode new.encode)).database x =
      .ok d') (k : Text) :
    d'.tables.get? k = if k = new.name then some new else d.tables.get? k := by
  obtain ⟨d₁, hd₁, hget⟩ := get?_database_withoutFile hs ht hd hold
  have hget' := get?_database_putFile (a := a.withoutFile x new.name) hs hd₁ hnew hd' k
  rw [ht.small, ← hid, hget] at hget'
  by_cases hk : k = new.name
  · rw [if_pos hk] at hget' ⊢
    exact hget'
  · rw [hget', if_neg hk, if_neg hk, if_neg fun h => hk h.1]

end Archive

namespace Engine

variable {e e' : Engine} {x t command use : Text} {s : Statement} {d d' : Database}

/-- A command for the session that is always open does to the catalog what its statement does, and
the session stays open with its selection. -/
theorem execute_withCatalog {sess : Session} (hid : e.session none = .ok sess)
    (hread : Statement.ofCommand command = .ok s) {r : Except Failure Result} {c : Catalog}
    (hrun : (perform defaultId s).run e = (r, e.withCatalog c)) :
    (e.execute command none).1 = ⟨s.label, r⟩ ∧ (e.execute command none).2.catalog = c ∧
      (e.execute command none).2.selection defaultId = e.selection defaultId ∧
      ∃ sess', (e.execute command none).2.session none = .ok sess' := by
  have hex := execute_run hid hread hrun
  rw [hex]
  cases r with
  | error f => exact ⟨rfl, rfl, rfl, sess, hid⟩
  | ok result =>
    have hget := withSession_sessions (e := e.withCatalog c)
      (fun s => { s with executed := s.executed + 1 }) (session_eq_ok_iff.1 hid)
    refine ⟨rfl, ?_, selection_counted (e.withCatalog c) defaultId defaultId, _,
      session_eq_ok_iff.2 hget⟩
    simp only [onSuccess, record_catalog, Option.getD_none, withSession_catalog, withCatalog_catalog]

/-- A session with a database of its own, on a calm disk. -/
structure Working (e : Engine) (x : Text) (d : Database) : Prop where
  settled : e.catalog.Settled
  opened : ∃ sess, e.session none = .ok sess
  selected : e.selection defaultId = some x
  resident : e.catalog.resident.get? x = some d

/-- Another file and another shape of the database keep a session working. -/
theorem Working.becomes (h : e.Working x d) {disk : Disk}
    (hb : e.catalog.Becomes disk (e.catalog.resident.put x d') e'.catalog) (hp : disk.Proper)
    (hget : ∀ y, disk.entries.get? [y] = e.catalog.archive.disk.entries.get? [y])
    (hsel : e'.selection defaultId = e.selection defaultId)
    (hid : ∃ sess, e'.session none = .ok sess) : e'.Working x d' where
  settled := hb.settled h.settled hp fun y hy => by
    have hhas : e.catalog.archive.isKept y := by
      rw [OrderedMap.has, OrderedMap.get?_put] at hy
      split at hy
      · next hxy => exact hxy ▸ h.settled.isKept h.resident
      · exact h.settled.grounded y hy
    rw [hget]
    exact beq_iff_eq.1 hhas
  opened := hid
  selected := hsel.trans h.selected
  resident := by rw [hb.resident, OrderedMap.get?_put_same]

/-- A session that uses a database of a disk works with what is in its files. -/
theorem start_working {o : Options} {disk : Disk} (ho : o.Plain) (hd : disk.Proper)
    (huse : Statement.ofCommand use = .ok (.use x))
    (hload : ((start o disk).execute use none).2.catalog.resident.get? x = some d) :
    ((start o disk).execute use none).2.Working x d ∧
      (start o disk).catalog.archive.database x = .ok d ∧
      ∃ writes loads, ((start o disk).execute use none).2.catalog.archive =
        { (start o disk).catalog.archive with writes := writes, loads := loads } := by
  have hs := start_settled (o := o) ho hd
  have hx := (Statement.ofCommand_named huse : Name.IsWord x).isName
  obtain ⟨-, hb⟩ := execute_use hs hx huse rfl
  have hf : (start o disk).catalog.found x = .ok d := by
    rw [hb.resident, Catalog.get?_heldAfter_self] at hload
    exact Except.toOption_eq_some_iff.1 hload
  have hk := Catalog.kept_of_found hs hf
  obtain ⟨hsel, hid⟩ := selection_execute_use hs hx huse rfl hf
  refine ⟨⟨hs.of_heldAfter hb, hid, hsel, hload⟩, ?_, _, _, hb.archive_eq⟩
  rw [← hf, Catalog.found_of_kept rfl (hs.isName hk).2 hk]

/-- A table is dropped. -/
theorem Working.execute_dropTable (h : e.Working x d)
    (hread : Statement.ofCommand command = .ok (.dropTable t))
    (hok : (e.execute command none).1.success) :
    (∃ old, d.tables.get? t = some old) ∧ (e.execute command none).2.Working x (d.drop t) ∧
      e.catalog.Becomes (e.catalog.archive.withoutFile x t).disk
        (e.catalog.resident.put x (d.drop t)) (e.execute command none).2.catalog := by
  have ht : Name.IsWord t := Statement.ofCommand_named hread
  obtain ⟨sess, hid⟩ := h.opened
  cases hrun : (Catalog.dropTable x t).run e.catalog with
  | mk r c =>
    obtain ⟨hout, hc, hsel, hid'⟩ :=
      execute_withCatalog hid hread (perform_dropTable_run h.selected hrun)
    cases r with
    | error f =>
      rw [hout] at hok
      cases hok
    | ok u =>
      obtain ⟨hold, hb⟩ := h.settled.dropTable_eq_ok h.resident ht hrun
      rw [← hc] at hb
      refine ⟨hold, h.becomes hb ?_ ?_ hsel hid', hb⟩
      · exact h.settled.proper.erase (by simp)
      · exact fun y => OrderedMap.get?_erase_other _ (by simp)

/-- A table is created. -/
theorem Working.execute_createTable (h : e.Working x d) {columns : List Text}
    (hread : Statement.ofCommand command = .ok (.createTable t columns))
    (hok : (e.execute command none).1.success) :
    ∃ new, Table.create t columns = .ok new ∧
      (e.execute command none).2.Working x (d.replace new) ∧
      e.catalog.Becomes (e.catalog.archive.putFile x t (Utf8.encode new.encode)).disk
        (e.catalog.resident.put x (d.replace new)) (e.execute command none).2.catalog := by
  have ht : Name.IsWord t := Statement.ofCommand_named hread
  obtain ⟨sess, hid⟩ := h.opened
  cases hrun : (Catalog.createTable x t columns).run e.catalog with
  | mk r c =>
    obtain ⟨hout, hc, hsel, hid'⟩ :=
      execute_withCatalog hid hread (perform_createTable_run h.selected hrun)
    cases r with
    | error f =>
      rw [hout] at hok
      cases hok
    | ok new =>
      obtain ⟨hnew, hw, hb⟩ := h.settled.createTable_eq_ok h.resident ht hrun
      rw [← hc] at hb
      refine ⟨new, hnew, h.becomes hb ?_ ?_ hsel hid', hb⟩
      · have hx := (h.settled.isName hw.directory.2).1
        have hf := h.settled.plain.isName_fileName ht
        exact h.settled.proper.put _ (by simp) (by simpa using ⟨⟨hx, hw.directory.1⟩, hf, hw.file_fits⟩)
      · exact fun y => OrderedMap.get?_put_other _ _ (by simp)

/-- What is found after a restart is what is in the files. -/
theorem Working.restart_opens_iff (h : e.Working x d)
    (huse : Statement.ofCommand use = .ok (.use x)) :
    e.restart.Opens x d' ↔ e.catalog.archive.database x = .ok d' := by
  have hk := h.settled.isKept h.resident
  have hx := h.settled.isName hk
  rw [opens_iff (restart_settled h.settled) hx.1 huse rfl, restart_found h.settled hx.2 hk]

/-- A table that is dropped from a database as it was found on a disk is unknown after a restart
exactly if its file is named in small letters, and else it is there as before. A table of the name
that is created in its place is found after a restart exactly in the former case, and in the latter
the database cannot be used. The other tables are found as they were. -/
theorem dropped_stays_dropped_iff {o : Options} {disk : Disk} {drop : Text} (ho : o.Plain)
    (hd : disk.Proper) (huse : Statement.ofCommand use = .ok (.use x))
    (hload : ((start o disk).execute use none).2.catalog.resident.get? x = some d)
    (hdrop : Statement.ofCommand drop = .ok (.dropTable t))
    (hok : (((start o disk).execute use none).2.execute drop none).1.success) :
    let e := (((start o disk).execute use none).2.execute drop none).2
    ∃ old d₁, d.tables.get? t = some old ∧ e.restart.Opens x d₁ ∧
      (∀ k, d₁.tables.get? k = if k = t ∧ old.name = t then none else d.tables.get? k) ∧
      ∀ create columns, Statement.ofCommand create = .ok (.createTable t columns) →
        (e.execute create none).1.success →
        ((∃ d₂, (e.execute create none).2.restart.Opens x d₂) ↔ old.name = t) ∧
        ∀ d₂, (e.execute create none).2.restart.Opens x d₂ →
          ∃ new, Table.create t columns = .ok new ∧
            ∀ k, d₂.tables.get? k = if k = t then some new else d.tables.get? k := by
  intro e
  obtain ⟨hw, hdb, writes, loads, harchive⟩ := start_working ho hd huse hload
  have ht : Name.IsWord t := Statement.ofCommand_named hdrop
  obtain ⟨⟨old, hold⟩, hw₁, hb₁⟩ := hw.execute_dropTable hdrop hok
  have hs := ho.suffix_ne
  let a := (start o disk).catalog.archive
  -- The counts of an archive have no part in what its files hold.
  have hdisk₁ : e.catalog.archive.disk = (a.withoutFile x t).disk := by
    rw [hb₁.disk, harchive]
    rfl
  have hsuffix₁ : e.catalog.archive.suffix = a.suffix := by
    rw [hb₁.suffix, harchive]
  have hfiles₁ : e.catalog.archive.database x = (a.withoutFile x t).database x :=
    Archive.database_eq_of_disk hdisk₁ hsuffix₁
  obtain ⟨d₁, hd₁, hget₁⟩ := Archive.get?_database_withoutFile (a := a) hs ht hdb hold
  refine ⟨old, d₁, hold, (hw₁.restart_opens_iff huse).2 (hfiles₁.trans hd₁), hget₁, ?_⟩
  intro create columns hcreate hdone
  obtain ⟨new, hnew, hw₂, hb₂⟩ := hw₁.execute_createTable hcreate hdone
  obtain ⟨-, hmade⟩ := Table.create_eq_ok hnew
  have hsound := Table.create_sound hnew
  obtain rfl : new.name = t := by rw [hmade]
  have hid : new.nextId = Table.followingId new.rows := by rw [hmade]; rfl
  have hdisk₂ : (e.execute create none).2.catalog.archive.disk =
      ((a.withoutFile x new.name).putFile x new.name (Utf8.encode new.encode)).disk := by
    rw [hb₂.disk, Archive.putFile, hdisk₁, Archive.fileName_congr hsuffix₁]
    rfl
  have hfiles₂ : (e.execute create none).2.catalog.archive.database x =
      ((a.withoutFile x new.name).putFile x new.name (Utf8.encode new.encode)).database x :=
    Archive.database_eq_of_disk hdisk₂ (hb₂.suffix.trans hsuffix₁)
  constructor
  · rw [← Archive.exists_database_recreated_iff (a := a) hs ht hdb hold hsound]
    exact exists_congr fun d₂ => (hw₂.restart_opens_iff huse).trans (by rw [hfiles₂])
  · intro d₂ hd₂
    rw [hw₂.restart_opens_iff huse, hfiles₂] at hd₂
    exact ⟨new, hnew, Archive.get?_database_recreated (a := a) hs ht hdb hold hsound hid hd₂⟩

/-! ## A file that is named in a capital letter -/

/-- A disk with one table file, whose name is a capital letter. -/
def capitalFile : Disk :=
  ((Disk.empty ['r']).put [['d']] .directory).put [['d'], ['T', '.', 't', 'a', 'b']]
    (.file (Utf8.encode ['i', 'd', '\t', 'a', '\n', '1', '\t', 'x', '\n']))

theorem capitalFile_proper : capitalFile.Proper :=
  Disk.oneFile_proper _ ⟨⟨by decide, by decide, by decide⟩, by decide⟩
    ⟨⟨by decide, by decide, by decide⟩, by decide⟩ _

/-- The table is dropped, and is there again after a restart. Where it was created anew, the database
cannot be used any more. -/
theorem dropped_table_returns :
    let o : Options := ⟨['.', 't', 'a', 'b'], false, .whole, ['1']⟩
    let e := (start o capitalFile).execute "USE d;".toList none
    let dropped := e.2.execute "DROP TABLE t;".toList none
    let created := dropped.2.execute "CREATE TABLE t (b);".toList none
    let again := dropped.2.restart.execute "USE d;".toList none
    let broken := created.2.restart.execute "USE d;".toList none
    e.1.response = "[OK]".toList ∧ dropped.1.response = "[OK]".toList ∧
    (dropped.2.execute "SELECT * FROM t;".toList none).1.success = false ∧
    again.1.response = "[OK]".toList ∧
    (again.2.execute "SELECT * FROM t;".toList none).1.response = "[OK]\nid\ta\n1\tx".toList ∧
    created.1.response = "[OK]".toList ∧ broken.1.success = false := by
  decide +kernel

theorem dropped_returns_of_capitalFile :
    let o : Options := ⟨['.', 't', 'a', 'b'], false, .whole, ['1']⟩
    let dropped := (((start o capitalFile).execute "USE d;".toList none).2.execute
      "DROP TABLE t;".toList none).2
    (∃ d₁ old, dropped.restart.Opens ['d'] d₁ ∧ d₁.tables.get? ['t'] = some old ∧ old.name = ['T']) ∧
      ∀ d₂, ¬ (dropped.execute "CREATE TABLE t (b);".toList none).2.restart.Opens ['d'] d₂ := by
  intro o dropped
  have hplain : o.Plain := ⟨by decide, by decide, by decide⟩
  have huse : Statement.ofCommand "USE d;".toList = .ok (.use ['d']) := by cbv
  have hdrop : Statement.ofCommand "DROP TABLE t;".toList = .ok (.dropTable ['t']) := by cbv
  have hcreate : Statement.ofCommand "CREATE TABLE t (b);".toList =
      .ok (.createTable ['t'] [['b']]) := by cbv
  have hload : (((start o capitalFile).execute "USE d;".toList none).2.catalog.resident.get?
      ['d']).bind (fun d => (d.tables.get? ['t']).map (·.name)) = some ['T'] := by decide +kernel
  obtain ⟨d, hd, ht⟩ := Option.bind_eq_some_iff.1 hload
  obtain ⟨old, hold, hname⟩ := Option.map_eq_some_iff.1 ht
  obtain ⟨old', d₁, hold', hagain, hget, hcreated⟩ := dropped_stays_dropped_iff hplain
    capitalFile_proper huse hd hdrop (by decide +kernel)
  cases hold.symm.trans hold'
  have hne : old.name ≠ ['t'] := by
    rw [hname]
    decide
  refine ⟨⟨d₁, old, hagain, ?_, hname⟩, fun d₂ hd₂ => ?_⟩
  · rw [hget, if_neg fun h => hne h.2, hold]
  · exact hne ((hcreated _ _ hcreate (by decide +kernel)).1.1 ⟨d₂, hd₂⟩)

end Engine

end Tabular
