import Tabular.Proofs.Catalog.Refused
import Tabular.Proofs.Engine.Statements

/-!
# Outcomes of statements for a catalog

All that a statement can make of a catalog, when it succeeds and when it fails, whatever the disk
refuses: the tree and the resident databases are what they were, but for what is named here.
-/

namespace Tabular

/-- The table that a change makes. -/
def Catalog.Edit.table? : Catalog.Edit → Option Table
  | .none => Option.none
  | .whole t | .row t _ => some t

/-- The table that a fitting change makes is sound and keeps the name. -/
theorem Catalog.Edit.Fits.table {edit : Catalog.Edit} {old new : Table} (h : edit.Fits old)
    (hn : edit.table? = some new) : new.Sound ∧ new.name = old.name := by
  cases edit with
  | none => cases hn
  | whole t =>
    cases hn
    exact h
  | row t row =>
    cases hn
    obtain ⟨hs, -, -, n, rfl⟩ := h
    exact ⟨hs, rfl⟩

/-- A row is not appended where there is no file to append it to. -/
theorem Archive.appendRow_missing {a : Archive} {x : Text} {t : Table} (row : Row)
    (hd : a.disk.Calm) (hx : Disk.IsName x) (hdir : Disk.fits x ∧ a.isKept x)
    (ht : Disk.IsName (a.fileName t.name)) (hfit : Disk.fits (a.fileName t.name))
    (hn : ∀ content, a.disk.entries.get? [x, a.fileName t.name] ≠ some (.file content)) :
    ∃ f, (appendRow x t row).run a = (.error f, a) := by
  have hr := hd.reaches_two hx hdir.1 (beq_iff_eq.1 hdir.2) ht hfit
  have hfile : (Disk.isFile [x, a.fileName t.name]).run a.disk = (.ok false, a.disk) := by
    rw [Disk.isFile, Action.run_bind_ok hr.entry_run]
    cases hg : a.disk.entries.get? [x, a.fileName t.name] with
    | none => rfl
    | some e =>
      cases e with
      | directory => rfl
      | file content => exact absurd hg (hn content)
  rw [appendRow, Action.run_bind_ok (Action.run_look _ _)]
  simp only [id, a.tablePath_eq hx ht]
  exact ⟨_, Action.run_bind_ok (onDisk_ok hfile)⟩

namespace Catalog

/-- The resident databases with the change of a table of one of them. -/
def Edit.made (edit : Edit) (x : Text) (d : Database) (r : OrderedMap Text Database) :
    OrderedMap Text Database :=
  match edit.table? with
  | Option.none => r
  | some t => r.put x (d.replace t)

/-- What the change of a table makes of the tree once it is carried out. -/
inductive Carried (c : Catalog) (x : Text) : Edit → Disk → Prop
  | none : c.Carried x .none c.archive.disk
  | whole {t : Table} (writable : c.archive.Writable x t.name) :
    c.Carried x (.whole t) (c.archive.putFile x t.name (Utf8.encode t.encode)).disk
  | row {t : Table} {row : Row} (mode : c.mode = .whole) (writable : c.archive.Writable x t.name) :
    c.Carried x (.row t row) (c.archive.putFile x t.name (Utf8.encode t.encode)).disk
  | line {t : Table} {row : Row} {content : Bytes} (mode : c.mode = .append)
    (file : c.archive.disk.entries.get? [x, c.archive.fileName t.name] = some (.file content)) :
    c.Carried x (.row t row)
      (c.archive.putFile x t.name (content ++ Utf8.encode (Table.encodeRow row))).disk

/-- What the change of a table may leave of the tree when it cannot be carried out: what was there,
and perhaps a temporary file or a last line. -/
inductive Left (c : Catalog) (x : Text) : Edit → Failure → Disk → Prop
  | unwritten {edit : Edit} {f : Failure} (writing : f.OfWriting) :
    c.Left x edit f c.archive.disk
  | draft {edit : Edit} {t : Table} {f : Failure} {content : Bytes} (writing : f.OfWriting)
    (table : edit.table? = some t) (fits : Disk.fits (c.archive.temporaryName t.name))
    (free : c.archive.disk.entries.get? [x, c.archive.temporaryName t.name] = none) :
    c.Left x edit f (c.archive.drafted x t.name content)
  | line {t : Table} {row : Row} {f : Failure} {content : Bytes} (writing : f.OfWriting)
    (mode : c.mode = .append)
    (file : c.archive.disk.entries.get? [x, c.archive.fileName t.name] = some (.file content)) :
    c.Left x (.row t row) f
      (c.archive.putFile x t.name (content ++ Utf8.encode (Table.encodeRow row))).disk
  | missing {t : Table} {row : Row} {p : Text} (file : ∀ content,
      c.archive.disk.entries.get? [x, c.archive.fileName t.name] ≠ some (.file content)) :
    c.Left x (.row t row) (.rejected (.storage (.appendMissing p))) c.archive.disk

section Carry

variable {c c' : Catalog} {x : Text} {d : Database} {edit : Edit} {t : Table}

/-- A change that is carried out was written. -/
theorem carry_eq_ok (hc : c.Settled) (hr : c.resident.get? x = some d)
    (ht : ∀ t, edit.table? = some t →
      Disk.IsName (c.archive.fileName t.name) ∧ Disk.fits (c.archive.fileName t.name))
    (h : (edit.carry x).run c = (.ok (), c')) :
    ∃ disk, c.Carried x edit disk ∧ c.Becomes disk (edit.made x d c.resident) c' := by
  have hk := hc.isKept hr
  have hwhole : ∀ t, Disk.IsName (c.archive.fileName t.name) →
      ((Edit.whole t).carry x).run c = (.ok (), c') → c.archive.Writable x t.name ∧
        c.Becomes (c.archive.putFile x t.name (Utf8.encode t.encode)).disk
          (c.resident.put x (d.replace t)) c' := by
    intro t hn h
    by_cases hw : c.archive.Writable x t.name
    · obtain ⟨c'', hrun, hb⟩ := carry_whole_run hc hk hr hn hw
      cases h.symm.trans hrun
      exact ⟨hw, hb⟩
    · obtain ⟨f, c'', hrun, -⟩ := carry_whole_error hc hk hr hn hw
      cases h.symm.trans hrun
  cases edit with
  | none =>
    cases h
    exact ⟨_, .none, .refl c⟩
  | whole t =>
    obtain ⟨hw, hb⟩ := hwhole t (ht t rfl).1 h
    exact ⟨_, .whole hw, hb⟩
  | row t row =>
    obtain ⟨hn, hfit⟩ := ht t rfl
    cases hm : c.mode with
    | whole =>
      rw [carry_row_whole hm hr row] at h
      obtain ⟨hw, hb⟩ := hwhole t hn h
      exact ⟨_, .row hm hw, hb⟩
    | append =>
      by_cases hg : ∃ content,
          c.archive.disk.entries.get? [x, c.archive.fileName t.name] = some (.file content)
      · obtain ⟨content, hg⟩ := hg
        obtain ⟨c'', hrun, hb⟩ := carry_row_append hc hk hm hr hn hfit hg row
        cases h.symm.trans hrun
        exact ⟨_, .line hm hg, hb⟩
      · obtain ⟨hx, hxfit⟩ := hc.isName hk
        obtain ⟨f, hf⟩ := Archive.appendRow_missing row hc.proper.toCalm hx ⟨hxfit, hk⟩ hn
          hfit fun content h => hg ⟨content, h⟩
        rw [Edit.carry, Action.run_bind_ok (replace_run hr t), persistInsert,
          Action.run_bind_ok (Action.run_look _ _)] at h
        simp only [hm] at h
        rw [onArchive_run, hf] at h
        cases h

/-- A change that could not be carried out was made here all the same. -/
theorem carry_eq_error (hh : c.Honest) (hc : c.calmed.Settled) (hr : c.resident.get? x = some d)
    (ht : ∀ t, edit.table? = some t →
      Disk.IsName (c.archive.fileName t.name) ∧ Disk.fits (c.archive.fileName t.name))
    {f : Failure} (h : (edit.carry x).run c = (.error f, c')) :
    ∃ t disk, edit.table? = some t ∧ c.calmed.Left x edit f disk ∧
      c.Turns disk (c.resident.put x (d.replace t)) c' := by
  have hk := hc.isKept hr
  obtain ⟨hx, hxfit⟩ := hc.isName hk
  have hplain : c.archive.Plain := hc.plain.congr rfl rfl
  have hsave : ∀ t, edit.table? = some t → Disk.IsName (c.archive.fileName t.name) → ∀ c₁ : Catalog,
      c₁ = { c with resident := c.resident.put x (d.replace t) } →
      (onArchive (Archive.save x t)).run c₁ = (.error f, c') →
      ∃ disk, c.calmed.Left x edit f disk ∧ c.Turns disk (c.resident.put x (d.replace t)) c' := by
    rintro t hedit hn c₁ rfl h
    obtain ⟨hrun, rfl⟩ := Prod.mk.inj h
    obtain ⟨hf, hs | ⟨hfit, hfree, content, hs⟩⟩ := Archive.save_eq_error (a := c.archive) hplain hh
      hc.proper.toCalm hx hn (Prod.ext hrun rfl)
    · exact ⟨_, .unwritten hf, c.turns_of_archive hs _⟩
    · exact ⟨_, .draft hf hedit hfit hfree, c.turns_of_archive hs _⟩
  cases edit with
  | none => cases h
  | whole t =>
    rw [Edit.carry, Action.run_bind_ok (replace_run hr t)] at h
    obtain ⟨disk, hl, hb⟩ := hsave t rfl (ht t rfl).1 _ rfl h
    exact ⟨t, disk, rfl, hl, hb⟩
  | row t row =>
    obtain ⟨hn, hfit⟩ := ht t rfl
    rw [Edit.carry, Action.run_bind_ok (replace_run hr t), persistInsert,
      Action.run_bind_ok (Action.run_look _ _)] at h
    cases hm : c.mode with
    | whole =>
      simp only [hm] at h
      obtain ⟨disk, hl, hb⟩ := hsave t rfl hn _ (by rw [hm]) h
      exact ⟨t, disk, rfl, hl, hb⟩
    | append =>
      simp only [hm] at h
      obtain ⟨hrun, rfl⟩ := Prod.mk.inj h
      obtain ⟨hf, hs | ⟨content, hg, hs⟩⟩ | ⟨⟨p, rfl⟩, hs, hg⟩ := Archive.appendRow_eq_error
        (a := c.archive) hh hc.proper.toCalm hx ⟨hxfit, hk⟩ hn hfit (Prod.ext hrun rfl)
      · exact ⟨t, _, rfl, .unwritten hf, hm ▸ c.turns_of_archive hs _⟩
      · exact ⟨t, _, rfl, .line hf hm hg, hm ▸ c.turns_of_archive hs _⟩
      · exact ⟨t, _, rfl, .missing hg, hm ▸ c.turns_of_archive hs _⟩

end Carry

/-! ## Work that succeeds -/

section Work

variable {c c' : Catalog} {x t : Text} {d : Database}

theorem use_eq_ok (hh : c.Honest) (hc : c.calmed.Settled) (hx : Disk.IsName x)
    (h : (use x).run c = (.ok d, c')) :
    c.calmed.found x = .ok d ∧ c.Turns c.archive.disk.calmed (c.calmed.heldAfter x) c' := by
  obtain ⟨_, hrun, hb⟩ := use_run hc hx
  obtain ⟨hf, rfl⟩ := Prod.mk.inj (hrun.symm.trans ((undeterred_use x).ok_run hh h))
  exact ⟨hf, hb⟩

theorem createDatabase_eq_ok (hh : c.Honest) (hc : c.calmed.Settled) (hx : Disk.IsName x)
    (h : (createDatabase x).run c = (.ok d, c')) :
    Disk.fits x ∧ c.archive.disk.entries.get? [x] = none ∧
      c.Turns (c.archive.disk.calmed.put [x] .directory) (c.resident.put x (Database.empty x)) c' := by
  have hcalm := (undeterred_createDatabase hx).ok_run ⟨hh, hc.proper.root⟩ h
  obtain ⟨_, hrun, hb⟩ := createDatabase_run hc hx
  obtain ⟨hm, rfl⟩ := Prod.mk.inj (hrun.symm.trans hcalm)
  rw [hm] at hb
  exact ⟨(created_eq_ok hm).1, (created_eq_ok hm).2, hb⟩

theorem dropDatabase_eq_ok (hh : c.Honest) (hc : c.calmed.Settled) (hx : Disk.IsName x) {u : Unit}
    (h : (dropDatabase x).run c = (.ok u, c')) :
    c.Turns (c.archive.disk.calmed.cut [x]) (c.resident.erase x) c' := by
  obtain ⟨_, hrun, hb⟩ := dropDatabase_run hc hx
  obtain ⟨hm, rfl⟩ := Prod.mk.inj (hrun.symm.trans ((undeterred_dropDatabase x).ok_run hh h))
  rw [hm] at hb
  exact hb

theorem createTable_eq_ok (hh : c.Honest) (hc : c.calmed.Settled) (hr : c.resident.get? x = some d)
    (ht : Disk.IsName (c.archive.fileName t)) {columns : List Text} {new : Table}
    (h : (createTable x t columns).run c = (.ok new, c')) :
    d.has t = false ∧ Table.create t columns = .ok new ∧ c.calmed.archive.Writable x new.name ∧
      c.Turns (c.calmed.archive.putFile x new.name (Utf8.encode new.encode)).disk
        (c.resident.put x (d.replace new)) c' := by
  have hcalm := (undeterred_createTable x t columns).ok_run hh h
  have hx := (hc.isName (hc.isKept hr)).1
  have hheld : c.calmed.heldAfter x = c.resident := heldAfter_of_get? hr
  cases hp : c.calmed.planned x t columns with
  | error f =>
    obtain ⟨_, hrun, -⟩ := createTable_error hc hx hp
    cases hrun.symm.trans hcalm
  | ok p =>
    obtain ⟨d', new'⟩ := p
    obtain ⟨hf, hfresh, hmade⟩ := planned_eq_ok hp
    cases hf.symm.trans (found_of_get? (c := c.calmed) hr)
    have hn : Disk.IsName (c.calmed.archive.fileName new'.name) := by
      rw [(Table.create_eq_ok hmade).2]
      exact ht
    by_cases hw : c.calmed.archive.Writable x new'.name
    · obtain ⟨_, hrun, hb⟩ := createTable_ok hc hx hp hn hw
      obtain ⟨hnew, rfl⟩ := Prod.mk.inj (hrun.symm.trans hcalm)
      cases hnew
      rw [hheld] at hb
      exact ⟨hfresh, hmade, hw, hb⟩
    · obtain ⟨f, _, hrun, -, -⟩ := createTable_fails hc hx hp hn hw
      cases hrun.symm.trans hcalm

theorem dropTable_eq_ok (hh : c.Honest) (hc : c.calmed.Settled) (hr : c.resident.get? x = some d)
    (ht : Disk.IsName (c.archive.fileName t)) {u : Unit}
    (h : (dropTable x t).run c = (.ok u, c')) :
    ∃ old, d.get t = .ok old ∧ c.Turns (c.calmed.archive.withoutFile x t).disk
      (c.resident.put x (d.drop t)) c' := by
  have hcalm := (undeterred_dropTable x t).ok_run hh h
  have hx := (hc.isName (hc.isKept hr)).1
  have hheld : c.calmed.heldAfter x = c.resident := heldAfter_of_get? hr
  cases hp : c.calmed.doomed x t with
  | error f =>
    obtain ⟨_, hrun, -⟩ := dropTable_error hc hx hp
    cases hrun.symm.trans hcalm
  | ok p =>
    obtain ⟨d', old⟩ := p
    obtain ⟨hf, hget⟩ := doomed_eq_ok hp
    cases hf.symm.trans (found_of_get? (c := c.calmed) hr)
    by_cases hw : Disk.fits (c.calmed.archive.fileName t) ∧
        c.calmed.archive.disk.entries.get? [x, c.calmed.archive.fileName t] ≠ some .directory
    · obtain ⟨_, hrun, hb⟩ := dropTable_ok hc hx hp ht hw.1 hw.2
      obtain ⟨-, rfl⟩ := Prod.mk.inj (hrun.symm.trans hcalm)
      rw [hheld] at hb
      exact ⟨old, hget, hb⟩
    · obtain ⟨f, _, hrun, -, -⟩ := dropTable_fails hc hx hp ht hw
      cases hrun.symm.trans hcalm

end Work

/-! ## All that a statement can make of a catalog -/

/-- What a statement that succeeds with a result makes of the tree and of the resident databases, in
a session that may have a database selected. -/
inductive Succeeds (c : Catalog) (selected : Option Text) :
    Statement → Result → Disk → OrderedMap Text Database → Prop
  | use {x : Text} {d : Database} (found : c.found x = .ok d) :
    c.Succeeds selected (.use x) (.done ["Using database ", x]) c.archive.disk (c.heldAfter x)
  | createDatabase {x : Text} (fits : Disk.fits x)
    (free : c.archive.disk.entries.get? [x] = none) :
    c.Succeeds selected (.createDatabase x) (.done ["Created database ", x])
      (c.archive.disk.put [x] .directory) (c.resident.put x (Database.empty x))
  | dropDatabase {x : Text} :
    c.Succeeds selected (.dropDatabase x) (.done ["Dropped database ", x])
      (c.archive.disk.cut [x]) (c.resident.erase x)
  | createTable {x t : Text} {columns : List Text} {d : Database} {new : Table}
    (chosen : selected = some x) (held : c.resident.get? x = some d) (fresh : d.has t = false)
    (created : Table.create t columns = .ok new) (writable : c.archive.Writable x new.name) :
    c.Succeeds selected (.createTable t columns) (.done ["Created table ", t])
      (c.archive.putFile x new.name (Utf8.encode new.encode)).disk
      (c.resident.put x (d.replace new))
  | dropTable {x t : Text} {d : Database} {old : Table} (chosen : selected = some x)
    (held : c.resident.get? x = some d) (there : d.get t = .ok old) :
    c.Succeeds selected (.dropTable t) (.done ["Dropped table ", t])
      (c.archive.withoutFile x t).disk (c.resident.put x (d.drop t))
  | edit {s : Statement} {x t : Text} {d : Database} {old : Table} {result : Result} {edit : Edit}
    {disk : Disk} (about : s.table? = some t) (chosen : selected = some x)
    (held : c.resident.get? x = some d) (there : d.tables.get? (Text.lower t) = some old)
    (worked : s.edit old = .ok (result, edit)) (written : c.Carried x edit disk) :
    c.Succeeds selected s result disk (edit.made x d c.resident)
  | join {left right leftColumn rightColumn : Text} {result : Result} :
    c.Succeeds selected (.join left right leftColumn rightColumn) result c.archive.disk c.resident

/-- What a statement that fails leaves of the tree and of the resident databases. -/
inductive Fails (c : Catalog) (selected : Option Text) :
    Statement → Failure → Disk → OrderedMap Text Database → Prop
  | unchanged {s : Statement} {f : Failure} (about : s.table? = none) :
    c.Fails selected s f c.archive.disk c.resident
  | unworked {s : Statement} {t : Text} {f : Failure} (about : s.table? = some t)
    (cause : f = .rejected .noDatabaseSelected ∨ (∃ n, f = .rejected (.unknownTable n)) ∨
      ∃ old, s.edit old = .error f) :
    c.Fails selected s f c.archive.disk c.resident
  | emptied {x p : Text} {e : SystemFault} (kept : c.archive.isKept x) :
    c.Fails selected (.dropDatabase x) (.rejected (.storage (.removeDirectory p e)))
      (c.archive.disk.emptied [x]) c.resident
  | draft {x t : Text} {columns : List Text} {f : Failure} {content : Bytes}
    (chosen : selected = some x) (kept : c.archive.isKept x) (writing : f.OfWriting)
    (fits : Disk.fits (c.archive.temporaryName t))
    (free : c.archive.disk.entries.get? [x, c.archive.temporaryName t] = none) :
    c.Fails selected (.createTable t columns) f (c.archive.drafted x t content) c.resident
  | edit {s : Statement} {x t : Text} {d : Database} {old new : Table} {result : Result}
    {edit : Edit} {f : Failure} {disk : Disk} (about : s.table? = some t)
    (chosen : selected = some x) (held : c.resident.get? x = some d)
    (there : d.tables.get? (Text.lower t) = some old)
    (worked : s.edit old = .ok (result, edit)) (made : edit.table? = some new)
    (left : c.Left x edit f disk) :
    c.Fails selected s f disk (c.resident.put x (d.replace new))

end Catalog

end Tabular
