import Tabular.Proofs.Catalog.Work

/-!
# Tables of a catalog

What making and dropping a table does, and what carrying out the change of a table does. A changed
table takes the place of the old one in its database, and the file follows: written in whole, or
with one line more.
-/

namespace Tabular

/-- A database without a table. -/
def Database.drop (d : Database) (t : Text) : Database :=
  { d with tables := d.tables.erase (Text.lower t) }

theorem Database.get_eq_ok_iff {d : Database} {t : Text} {u : Table} :
    d.get t = .ok u ↔ d.tables.get? (Text.lower t) = some u := by
  unfold get
  cases d.tables.get? (Text.lower t) <;> simp

namespace Catalog

/-- The change of a table that a statement asks for, once it is worked out. -/
inductive Edit where
  | none
  | whole (t : Table)
  | row (t : Table) (row : Row)

/-- Carry out the change of a table, first here and then in the archive. -/
def Edit.carry (x : Text) : Edit → Work Unit
  | .none => pure ()
  | .whole t => do
    replace x t
    persist x t
  | .row t r => do
    replace x t
    persistInsert x t r

/-- A change that keeps a table sound under its name, or puts a new row last. -/
def Edit.Fits (old : Table) : Edit → Prop
  | .none => True
  | .whole t => t.Sound ∧ t.name = old.name
  | .row t r => t.Sound ∧ Table.SoundRow old.columns.length r ∧
    Table.rowId r ∉ old.rows.map Table.rowId ∧
    ∃ n, t = { old with rows := old.rows ++ [r], nextId := n }

/-! ## Finding -/

theorem table_run_of_proper {c : Catalog} (hs : c.archive.suffix ≠ [])
    (hd : c.archive.disk.Proper) {x : Text} (hx : Disk.IsName x) (t : Text) :
    ∃ c', (table x t).run c = (c.found x >>= fun d => (d.get t).mapError Failure.rejected, c') ∧
      c.Becomes c.archive.disk (c.heldAfter x) c' := by
  obtain ⟨c', hrun, hb⟩ := database_run_of_proper hs hd hx
  refine ⟨c', ?_, hb⟩
  rw [table, Action.run_bind, hrun]
  cases c.found x <;> rfl

theorem table_run {c : Catalog} (hc : c.Settled) {x : Text} (hx : Disk.IsName x) (t : Text) :
    ∃ c', (table x t).run c = (c.found x >>= fun d => (d.get t).mapError Failure.rejected, c') ∧
      c.Becomes c.archive.disk (c.heldAfter x) c' :=
  table_run_of_proper hc.plain.suffix_ne hc.proper hx t

/-- A table that is found is a table of the database that is found. -/
theorem found_table_iff {c : Catalog} {x t : Text} {old : Table} :
    (c.found x >>= fun d => (d.get t).mapError Failure.rejected) = .ok old ↔
      ∃ d, c.found x = .ok d ∧ d.tables.get? (Text.lower t) = some old := by
  simp only [Except.bind_eq_ok_iff, Except.mapError_eq_ok_iff, Database.get_eq_ok_iff]

theorem replace_run {c : Catalog} {x : Text} {d : Database} (hr : c.resident.get? x = some d)
    (t : Table) : (replace x t).run c =
      (.ok (), { c with resident := c.resident.put x (d.replace t) }) := by
  simp [replace, hr]

/-! ## Changes -/

section Carry

variable {c : Catalog} {x : Text} {d : Database} {t : Table}

/-- A table that is written in whole takes its place in its database and in its file. -/
theorem carry_whole_run (hc : c.Settled) (hk : c.archive.isKept x)
    (hr : c.resident.get? x = some d) (ht : Disk.IsName (c.archive.fileName t.name))
    (hw : c.archive.Writable x t.name) :
    ∃ c', ((Edit.whole t).carry x).run c = (.ok (), c') ∧
      c.Becomes (c.archive.putFile x t.name (Utf8.encode t.encode)).disk
        (c.resident.put x (d.replace t)) c' := by
  have hs := Archive.save_run hc.plain hc.proper.toCalm (hc.isName hk).1 ht hw
  rw [Edit.carry, Action.run_bind_ok (replace_run hr t), persist]
  exact ⟨_, onArchive_eq hs, rfl, rfl, rfl, rfl, rfl, rfl⟩

theorem carry_whole_error (hc : c.Settled) (hk : c.archive.isKept x)
    (hr : c.resident.get? x = some d) (ht : Disk.IsName (c.archive.fileName t.name))
    (hw : ¬ c.archive.Writable x t.name) :
    ∃ f c', ((Edit.whole t).carry x).run c = (.error f, c') ∧ f.OfDisk := by
  obtain ⟨f, hs, hf⟩ := Archive.save_error hc.plain hc.proper.toCalm (hc.isName hk).1 ht hw
  rw [Edit.carry, Action.run_bind_ok (replace_run hr t), persist]
  exact ⟨f, _, onArchive_eq hs, hf⟩

/-- A table with a new row is written like any other unless rows are appended. -/
theorem carry_row_whole (hm : c.mode = .whole) (hr : c.resident.get? x = some d) (row : Row) :
    ((Edit.row t row).carry x).run c = ((Edit.whole t).carry x).run c := by
  rw [Edit.carry, Edit.carry, Action.run_bind_ok (replace_run hr t),
    Action.run_bind_ok (replace_run hr t), persistInsert, Action.run_bind_ok (Action.run_look _ _)]
  simp only [hm]
  rfl

/-- A new row is one more line in the file where rows are appended. -/
theorem carry_row_append (hc : c.Settled) (hk : c.archive.isKept x) (hm : c.mode = .append)
    (hr : c.resident.get? x = some d) (ht : Disk.IsName (c.archive.fileName t.name))
    (htfit : Disk.fits (c.archive.fileName t.name)) {content : Bytes}
    (hg : c.archive.disk.entries.get? [x, c.archive.fileName t.name] = some (.file content))
    (row : Row) :
    ∃ c', ((Edit.row t row).carry x).run c = (.ok (), c') ∧
      c.Becomes (c.archive.putFile x t.name
          (content ++ Utf8.encode (Table.encodeRow row))).disk
        (c.resident.put x (d.replace t)) c' := by
  obtain ⟨hx, hfit⟩ := hc.isName hk
  have ha := Archive.appendRow_run hc.proper.toCalm hx hfit hk ht htfit hg row
  rw [Edit.carry, Action.run_bind_ok (replace_run hr t), persistInsert,
    Action.run_bind_ok (Action.run_look _ _)]
  simp only [hm]
  exact ⟨_, onArchive_eq ha, rfl, rfl, rfl, rfl, hm.symm, rfl⟩

/-- What a catalog that has found a database does with a new row where rows are appended. -/
theorem carry_append_found {c' : Catalog} {row : Row} {content : Bytes} (hc : c.Settled)
    (hf : c.found x = .ok d) (hm : c.mode = .append)
    (hg : c.archive.disk.entries.get? [x, c.archive.fileName t.name] = some (.file content))
    (hb : c.Becomes c.archive.disk (c.heldAfter x) c') :
    ∃ c'', ((Edit.row t row).carry x).run c' = (.ok (), c'') ∧
      c'.Becomes (c.archive.putFile x t.name
        (content ++ Utf8.encode (Table.encodeRow row))).disk
        ((c.heldAfter x).put x (d.replace t)) c'' := by
  obtain ⟨hn, hfit⟩ := hc.isName_fileName hg
  have hc' := hc.of_heldAfter hb
  have hr : c'.resident.get? x = some d := by rw [hb.resident]; exact get?_heldAfter hf
  have hrun := fun hn hfit (hg : _ = some (Entry.file content)) =>
    carry_row_append (t := t) hc' (hc'.isKept hr) (hb.mode.trans hm) hr hn hfit hg row
  rw [hb.archive_eq, hb.resident] at hrun
  exact hrun hn hfit hg

/-- And what it does where tables are written in whole. -/
theorem carry_whole_found {c' : Catalog} {row : Row} (hc : c.Settled) (hf : c.found x = .ok d)
    (hm : c.mode = .whole) (hn : Disk.IsName (c.archive.fileName t.name))
    (hw : c.archive.Writable x t.name) (hb : c.Becomes c.archive.disk (c.heldAfter x) c') :
    ∃ c'', ((Edit.row t row).carry x).run c' = (.ok (), c'') ∧
      c'.Becomes (c.archive.putFile x t.name (Utf8.encode t.encode)).disk
        ((c.heldAfter x).put x (d.replace t)) c'' := by
  have hc' := hc.of_heldAfter hb
  have hr : c'.resident.get? x = some d := by rw [hb.resident]; exact get?_heldAfter hf
  have hw' := hw.congr hb.disk hb.suffix hb.stamp
  have hrun := fun hn => carry_whole_run hc' (hc'.isKept hr) hr (t := t) hn hw'
  rw [hb.archive_eq, hb.resident] at hrun
  rw [carry_row_whole (hb.mode.trans hm) hr row]
  exact hrun hn

end Carry

/-! ## Making and dropping -/

/-- The database and the table that creating a table works out. -/
def planned (c : Catalog) (x t : Text) (columns : List Text) :
    Except Failure (Database × Table) := do
  let d ← c.found x
  if d.has t then .error (.rejected (.duplicateTable t))
  else
    let new ← (Table.create t columns).mapError Failure.rejected
    return (d, new)

/-- Creating a table stops where it cannot be worked out, and then nothing is written. -/
theorem createTable_error {c : Catalog} (hc : c.Settled) {x : Text} (hx : Disk.IsName x) {t : Text}
    {columns : List Text} {f : Failure} (hp : c.planned x t columns = .error f) :
    ∃ c', (createTable x t columns).run c = (.error f, c') ∧
      c.Becomes c.archive.disk (c.heldAfter x) c' := by
  obtain ⟨c', hrun, hb⟩ := database_run hc hx
  refine ⟨c', ?_, hb⟩
  rw [createTable, Action.run_bind, hrun]
  unfold planned at hp
  cases hf : c.found x with
  | error e =>
    rw [hf] at hp
    cases hp
    rfl
  | ok d =>
    rw [hf] at hp
    simp only [bind, Except.bind] at hp
    simp only
    split at hp
    · next hh =>
      cases hp
      rw [hh]
      rfl
    · next hh =>
      rw [if_neg hh]
      cases hcr : Table.create t columns with
      | error e =>
        rw [hcr] at hp
        cases hp
        rw [Action.run_bind, check_run]
        rfl
      | ok new =>
        rw [hcr] at hp
        cases hp

theorem planned_eq_ok {c : Catalog} {x t : Text} {columns : List Text} {d : Database} {new : Table}
    (hp : c.planned x t columns = .ok (d, new)) :
    c.found x = .ok d ∧ d.has t = false ∧ Table.create t columns = .ok new := by
  unfold planned at hp
  obtain ⟨d', hf, hp⟩ := Except.bind_eq_ok_iff.1 hp
  split at hp
  · cases hp
  · next hh =>
    obtain ⟨new', hcr, he⟩ := Except.bind_eq_ok_iff.1 hp
    cases he
    exact ⟨hf, by simpa using hh, Except.mapError_eq_ok_iff.1 hcr⟩

/-- What is left of creating a table that was worked out. -/
theorem createTable_run {c c' : Catalog} {x t : Text} {columns : List Text} {d : Database}
    {new : Table} (hp : c.planned x t columns = .ok (d, new))
    (hrun : (Catalog.database x).run c = (c.found x, c')) :
    (createTable x t columns).run c =
      (do onArchive (Archive.save x new)
          replace x new
          return new : Work Table).run c' := by
  obtain ⟨hf, hh, hcr⟩ := planned_eq_ok hp
  rw [createTable, Action.run_bind, hrun, hf]
  simp only [hh, Bool.false_eq_true, if_false]
  rw [Action.run_bind, check_run, hcr]
  rfl

theorem createTable_ok {c : Catalog} (hc : c.Settled) {x : Text} (hx : Disk.IsName x) {t : Text}
    {columns : List Text} {d : Database} {new : Table}
    (hp : c.planned x t columns = .ok (d, new))
    (ht : Disk.IsName (c.archive.fileName new.name)) (hw : c.archive.Writable x new.name) :
    ∃ c', (createTable x t columns).run c = (.ok new, c') ∧
      c.Becomes (c.archive.putFile x new.name (Utf8.encode new.encode)).disk
        ((c.heldAfter x).put x (d.replace new)) c' := by
  obtain ⟨c₁, hrun, hb⟩ := database_run hc hx
  have hf := (planned_eq_ok hp).1
  have hr : c₁.resident.get? x = some d := by rw [hb.resident]; exact get?_heldAfter hf
  have hc₁ := hc.of_heldAfter hb
  rw [← Archive.fileName_congr hb.suffix] at ht
  have hs := Archive.save_run hc₁.plain hc₁.proper.toCalm hx ht
    (hw.congr hb.disk hb.suffix hb.stamp)
  have hrep := replace_run (c := { c₁ with archive :=
    { c₁.archive.putFile x new.name (Utf8.encode new.encode) with
      writes := c₁.archive.writes.bump .whole } }) hr new
  rw [createTable_run hp hrun]
  refine ⟨_, (Action.run_bind_ok (onArchive_eq hs)).trans (Action.run_bind_ok hrep), ?_⟩
  refine ⟨?_, hb.suffix, hb.safe, hb.stamp, hb.mode, ?_⟩
  · change (c₁.archive.putFile x new.name (Utf8.encode new.encode)).disk = _
    rw [hb.archive_eq]
    rfl
  · change c₁.resident.put x (d.replace new) = _
    rw [hb.resident]

theorem createTable_fails {c : Catalog} (hc : c.Settled) {x : Text} (hx : Disk.IsName x) {t : Text}
    {columns : List Text} {d : Database} {new : Table}
    (hp : c.planned x t columns = .ok (d, new))
    (ht : Disk.IsName (c.archive.fileName new.name)) (hw : ¬ c.archive.Writable x new.name) :
    ∃ f c', (createTable x t columns).run c = (.error f, c') ∧ f.OfDisk ∧
      c.Becomes c.archive.disk (c.heldAfter x) c' := by
  obtain ⟨c₁, hrun, hb⟩ := database_run hc hx
  have hc₁ := hc.of_heldAfter hb
  rw [← Archive.fileName_congr hb.suffix] at ht
  obtain ⟨f, hs, hf⟩ := Archive.save_error hc₁.plain hc₁.proper.toCalm hx ht fun h =>
    hw (h.congr hb.disk.symm hb.suffix.symm hb.stamp.symm)
  rw [createTable_run hp hrun, Action.run_bind_error (onArchive_eq hs)]
  exact ⟨f, c₁, rfl, hf, hb⟩

/-- The table that dropping works out, and its database. -/
def doomed (c : Catalog) (x t : Text) : Except Failure (Database × Table) := do
  let d ← c.found x
  let old ← (d.get t).mapError Failure.rejected
  return (d, old)

theorem doomed_eq_ok {c : Catalog} {x t : Text} {d : Database} {old : Table}
    (hp : c.doomed x t = .ok (d, old)) : c.found x = .ok d ∧ d.get t = .ok old := by
  obtain ⟨d', hf, hp⟩ := Except.bind_eq_ok_iff.1 hp
  obtain ⟨old', hg, he⟩ := Except.bind_eq_ok_iff.1 hp
  cases he
  exact ⟨hf, Except.mapError_eq_ok_iff.1 hg⟩

/-- Dropping a table stops where there is none, and then nothing is removed. -/
theorem dropTable_error {c : Catalog} (hc : c.Settled) {x : Text} (hx : Disk.IsName x) {t : Text}
    {f : Failure} (hp : c.doomed x t = .error f) :
    ∃ c', (dropTable x t).run c = (.error f, c') ∧
      c.Becomes c.archive.disk (c.heldAfter x) c' := by
  obtain ⟨c', hrun, hb⟩ := database_run hc hx
  refine ⟨c', ?_, hb⟩
  rw [dropTable, Action.run_bind, hrun]
  unfold doomed at hp
  cases hf : c.found x with
  | error e =>
    rw [hf] at hp
    cases hp
    rfl
  | ok d =>
    rw [hf] at hp
    simp only
    rw [Action.run_bind, check_run]
    cases hg : d.get t with
    | error e =>
      simp only [bind, Except.bind, hg, Except.mapError] at hp
      cases hp
      rfl
    | ok old =>
      simp only [bind, Except.bind, hg, Except.mapError] at hp
      cases hp

/-- What is left of dropping a table that is there. -/
theorem dropTable_run {c c' : Catalog} {x t : Text} {d : Database} {old : Table}
    (hp : c.doomed x t = .ok (d, old))
    (hrun : (Catalog.database x).run c = (c.found x, c')) :
    (dropTable x t).run c =
      (do onArchive (Archive.deleteTable x t)
          Action.change fun c => { c with resident := c.resident.put x (d.drop t) } :
        Work Unit).run c' := by
  obtain ⟨hf, hg⟩ := doomed_eq_ok hp
  have hrem : d.remove t = .ok (old, d.drop t) := by
    rw [Database.remove, hg]
    rfl
  rw [dropTable, Action.run_bind, hrun, hf]
  simp only
  rw [Action.run_bind, check_run, hg]
  simp only [Except.mapError]
  rw [Action.run_bind, Action.run_bind]
  cases (onArchive (Archive.deleteTable x t)).run c' with
  | mk r c'' =>
    cases r with
    | error e => rfl
    | ok u => simp only [Action.run_bind, check_run, hrem, Except.mapError]

theorem dropTable_ok {c : Catalog} (hc : c.Settled) {x : Text} (hx : Disk.IsName x) {t : Text}
    {d : Database} {old : Table} (hp : c.doomed x t = .ok (d, old))
    (ht : Disk.IsName (c.archive.fileName t)) (htfit : Disk.fits (c.archive.fileName t))
    (hn : c.archive.disk.entries.get? [x, c.archive.fileName t] ≠ some .directory) :
    ∃ c', (dropTable x t).run c = (.ok (), c') ∧
      c.Becomes (c.archive.withoutFile x t).disk ((c.heldAfter x).put x (d.drop t)) c' := by
  obtain ⟨c₁, hrun, hb⟩ := database_run hc hx
  have hk := kept_of_found hc (doomed_eq_ok hp).1
  have hk₁ : c₁.archive.isKept x := by rwa [Archive.isKept, hb.disk]
  rw [← Archive.fileName_congr hb.suffix] at ht htfit hn
  rw [← hb.disk] at hn
  have hs := Archive.deleteTable_run (hc.of_heldAfter hb).proper.toCalm hx (hc.isName hk).2 hk₁ ht
    htfit hn
  rw [dropTable_run hp hrun]
  refine ⟨_, (Action.run_bind_ok (onArchive_eq hs)).trans (Action.run_change _ _), ?_⟩
  refine ⟨?_, hb.suffix, hb.safe, hb.stamp, hb.mode, ?_⟩
  · change (c₁.archive.withoutFile x t).disk = _
    rw [hb.archive_eq]
    rfl
  · change c₁.resident.put x (d.drop t) = _
    rw [hb.resident]

theorem dropTable_fails {c : Catalog} (hc : c.Settled) {x : Text} (hx : Disk.IsName x) {t : Text}
    {d : Database} {old : Table} (hp : c.doomed x t = .ok (d, old))
    (ht : Disk.IsName (c.archive.fileName t)) (hn : ¬ (Disk.fits (c.archive.fileName t) ∧
      c.archive.disk.entries.get? [x, c.archive.fileName t] ≠ some .directory)) :
    ∃ f c', (dropTable x t).run c = (.error f, c') ∧ f.OfDisk ∧
      c.Becomes c.archive.disk (c.heldAfter x) c' := by
  obtain ⟨c₁, hrun, hb⟩ := database_run hc hx
  have hk := kept_of_found hc (doomed_eq_ok hp).1
  have hk₁ : c₁.archive.isKept x := by rwa [Archive.isKept, hb.disk]
  rw [← Archive.fileName_congr hb.suffix] at ht hn
  rw [← hb.disk] at hn
  obtain ⟨f, hs, hf⟩ := Archive.deleteTable_error (hc.of_heldAfter hb).proper.toCalm hx
    (hc.isName hk).2 hk₁ ht hn
  rw [dropTable_run hp hrun, Action.run_bind_error (onArchive_eq hs)]
  exact ⟨f, c₁, rfl, hf, hb⟩

end Catalog

end Tabular
