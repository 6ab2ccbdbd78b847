import Tabular.Proofs.Catalog.Alongside
import Tabular.Proofs.Table.Changes

/-!
# Work in step

A catalog that appends rows and one that writes tables in whole carry out the same work with the
same results, unless a call to the disk fails there.
-/

namespace Tabular.Catalog

open Archive

variable {α : Type} {good : Text → Prop} {c w : Catalog} {x : Text} {d : Database}

/-- A piece of work has one result here and there, and keeps the catalogs alongside, unless a call
to the disk fails there. -/
def InStep (good : Text → Prop) (m : Work α) (c w : Catalog) : Prop :=
  ∃ r w', m.run w = (r, w') ∧
    ((∀ f, r = .error f → ¬ f.OfDisk) → ∃ c', m.run c = (r, c') ∧ Alongside good c' w')

/-- The catalogs after a database was referred to. -/
theorem Alongside.of_heldAfter (h : Alongside good c w) {c' w' : Catalog}
    (hc : c.Becomes c.archive.disk (c.heldAfter x) c')
    (hw : w.Becomes w.archive.disk (w.heldAfter x) w') : Alongside good c' w' :=
  (h.holdingFound x).stays hc.of_holdingFound hw.of_holdingFound

theorem Alongside.use (h : Alongside good c w) (hx : Disk.IsName x) :
    InStep good (use x) c w := by
  obtain ⟨c', hrun, hb⟩ := use_run h.settled hx
  obtain ⟨w', hrun', hb'⟩ := use_run h.settled' hx
  rw [h.found_eq] at hrun'
  exact ⟨_, w', hrun', fun _ => ⟨c', hrun, h.of_heldAfter hb hb'⟩⟩

/-- The same table is found, here in a resident database. -/
theorem Alongside.table (h : Alongside good c w) (hx : Disk.IsName x) (t : Text) :
    ∃ r c' w', (table x t).run c = (r, c') ∧ (table x t).run w = (r, w') ∧
      Alongside good c' w' ∧ ∀ old, r = .ok old →
        ∃ d, c'.resident.get? x = some d ∧ d.tables.get? (Text.lower t) = some old := by
  obtain ⟨c', hrun, hb⟩ := table_run h.settled hx t
  obtain ⟨w', hrun', hb'⟩ := table_run h.settled' hx t
  rw [h.found_eq] at hrun'
  refine ⟨_, c', w', hrun, hrun', h.of_heldAfter hb hb', fun old hold => ?_⟩
  obtain ⟨d, hf, hg⟩ := found_table_iff.1 hold
  exact ⟨d, by rw [hb.resident]; exact get?_heldAfter hf, hg⟩

/-! ## Changes of a table -/

/-- The file of a resident table has a fit name. -/
theorem Alongside.isName_fileName (h : Alongside good c w) (hr : c.resident.get? x = some d)
    {k : Text} {t : Table} (hk : d.tables.get? k = some t) :
    Disk.IsName (c.archive.fileName t.name) ∧ Disk.fits (c.archive.fileName t.name) := by
  obtain ⟨content, hg, -⟩ := (h.held x d hr k t hk).file
  exact h.settled.proper.names _ _ hg _ (by simp)

theorem Alongside.carry_whole (h : Alongside good c w) (hr : c.resident.get? x = some d) {k : Text}
    {old t : Table} (hk : d.tables.get? k = some old) (ht : t.Sound) (hn : t.name = old.name) :
    InStep good ((Edit.whole t).carry x) c w := by
  have hkept := h.settled.isKept hr
  have hfile := h.isName_fileName hr hk
  rw [← hn] at hfile
  have hr' : w.resident.get? x = some d := by rw [h.resident, hr]
  by_cases hw : w.archive.Writable x t.name
  · obtain ⟨w', hrun', hb'⟩ := carry_whole_run h.settled' (h.isKept_eq x ▸ hkept) hr'
      (h.fileName_eq _ ▸ hfile.1) hw
    obtain ⟨c', hrun, hb⟩ := carry_whole_run h.settled hkept hr hfile.1 (h.writable hw)
    refine ⟨_, w', hrun', fun _ => ⟨c', hrun, h.putFile hr ht hfile (fun _ => ?_) hb hb'⟩⟩
    exact ⟨readsAs_encode ht, readsAs_encode ht, fun _ => ended_encode t⟩
  · obtain ⟨f, w', hrun', hf⟩ := carry_whole_error h.settled' (h.isKept_eq x ▸ hkept) hr'
      (h.fileName_eq _ ▸ hfile.1) hw
    exact ⟨_, w', hrun', fun hn => absurd hf (hn f rfl)⟩

/-- A new row is put at the end of the file here, and there the file is written anew. -/
theorem Alongside.carry_row (h : Alongside good c w) (hr : c.resident.get? x = some d) {k : Text}
    {old t : Table} (hk : d.tables.get? k = some old) {row : Row}
    (hf : (Edit.row t row).Fits old)
    (hi : Disk.fits (c.archive.temporaryName old.name) → c.archive.Insertable old) :
    InStep good ((Edit.row t row).carry x) c w := by
  obtain ⟨ht, hrow, hid, n, htable⟩ := hf
  have hn : t.name = old.name := by rw [htable]
  have hkept := h.settled.isKept hr
  have hfile := h.isName_fileName hr hk
  rw [← hn] at hfile
  have hr' : w.resident.get? x = some d := by rw [h.resident, hr]
  obtain ⟨content, hg, hread⟩ := (h.held x d hr k old hk).file
  by_cases hw : w.archive.Writable x t.name
  · obtain ⟨w', hrun', hb'⟩ := carry_whole_run h.settled' (h.isKept_eq x ▸ hkept) hr'
      (h.fileName_eq _ ▸ hfile.1) hw
    obtain ⟨c', hrun, hb⟩ := carry_row_append h.settled hkept h.appends hr hfile.1 hfile.2
      (by rw [hn]; exact hg) row
    refine ⟨_, w', (carry_row_whole h.rewrites hr' row).trans hrun', fun _ =>
      ⟨c', hrun, h.putFile hr ht hfile (fun hgood => ?_) hb hb'⟩⟩
    obtain ⟨hreads, hended⟩ := hread hgood
    have hend := hended (hi (hn ▸ (h.writable hw).temporary_fits))
    obtain ⟨happ, hend'⟩ := hreads.append_row hend hrow hid
    refine ⟨?_, readsAs_encode ht, fun _ => hend'⟩
    rw [htable]
    exact happ
  · obtain ⟨f, w', hrun', hof⟩ := carry_whole_error h.settled' (h.isKept_eq x ▸ hkept) hr'
      (h.fileName_eq _ ▸ hfile.1) hw
    exact ⟨_, w', (carry_row_whole h.rewrites hr' row).trans hrun', fun hn =>
      absurd hof (hn f rfl)⟩

theorem Alongside.carry (h : Alongside good c w) (hr : c.resident.get? x = some d) {k : Text}
    {old : Table} (hk : d.tables.get? k = some old) {edit : Edit} (hf : edit.Fits old)
    (hi : ∀ t row, edit = .row t row →
      Disk.fits (c.archive.temporaryName old.name) → c.archive.Insertable old) :
    InStep good (edit.carry x) c w := by
  cases edit with
  | none => exact ⟨_, w, rfl, fun _ => ⟨c, rfl, h⟩⟩
  | whole t => exact h.carry_whole hr hk hf.1 hf.2
  | row t row => exact h.carry_row hr hk hf (hi t row rfl)

/-! ## Making and dropping -/

theorem Alongside.createTable (h : Alongside good c w) (hx : Disk.IsName x) {t : Text}
    (ht : Disk.IsName (c.archive.fileName t)) (columns : List Text) :
    InStep good (createTable x t columns) c w := by
  have hplan : w.planned x t columns = c.planned x t columns := by
    rw [planned, planned, h.found_eq]
  cases hp : c.planned x t columns with
  | error f =>
    obtain ⟨c', hrun, hb⟩ := createTable_error h.settled hx hp
    obtain ⟨w', hrun', hb'⟩ := createTable_error h.settled' hx (hplan.trans hp)
    exact ⟨_, w', hrun', fun _ => ⟨c', hrun, h.of_heldAfter hb hb'⟩⟩
  | ok p =>
    obtain ⟨d, new⟩ := p
    obtain ⟨hfound, -, hcreate⟩ := planned_eq_ok hp
    have hname : new.name = t := by rw [(Table.create_eq_ok hcreate).2]
    have hfile : Disk.IsName (c.archive.fileName new.name) := hname ▸ ht
    have hfile' : Disk.IsName (w.archive.fileName new.name) := h.fileName_eq _ ▸ hfile
    by_cases hw : w.archive.Writable x new.name
    · obtain ⟨c', hrun, hb⟩ := createTable_ok h.settled hx hp hfile (h.writable hw)
      obtain ⟨w', hrun', hb'⟩ := createTable_ok h.settled' hx (hplan.trans hp) hfile' hw
      have hsound := Table.create_sound hcreate
      refine ⟨_, w', hrun', fun _ => ⟨c', hrun, ?_⟩⟩
      refine (h.holdingFound x).putFile (get?_heldAfter hfound) hsound
        ⟨hfile, (h.writable hw).file_fits⟩ (fun _ => ?_) hb.of_holdingFound hb'.of_holdingFound
      exact ⟨readsAs_encode hsound, readsAs_encode hsound, fun _ => ended_encode new⟩
    · obtain ⟨f, w', hrun', hf, -⟩ := createTable_fails h.settled' hx (hplan.trans hp) hfile' hw
      exact ⟨_, w', hrun', fun hn => absurd hf (hn f rfl)⟩

theorem Alongside.dropTable (h : Alongside good c w) (hx : Disk.IsName x) {t : Text}
    (ht : Disk.IsName (c.archive.fileName t)) : InStep good (dropTable x t) c w := by
  have hdoom : w.doomed x t = c.doomed x t := by rw [doomed, doomed, h.found_eq]
  cases hp : c.doomed x t with
  | error f =>
    obtain ⟨c', hrun, hb⟩ := dropTable_error h.settled hx hp
    obtain ⟨w', hrun', hb'⟩ := dropTable_error h.settled' hx (hdoom.trans hp)
    exact ⟨_, w', hrun', fun _ => ⟨c', hrun, h.of_heldAfter hb hb'⟩⟩
  | ok p =>
    obtain ⟨d, old⟩ := p
    have hfound := (doomed_eq_ok hp).1
    have ht' : Disk.IsName (w.archive.fileName t) := h.fileName_eq _ ▸ ht
    by_cases hn : Disk.fits (w.archive.fileName t) ∧
        w.archive.disk.entries.get? [x, w.archive.fileName t] ≠ some .directory
    · have hn' : Disk.fits (c.archive.fileName t) ∧
          c.archive.disk.entries.get? [x, c.archive.fileName t] ≠ some .directory := by
        rw [← h.fileName_eq]
        exact ⟨hn.1, fun hd => hn.2 ((h.alike x _).eq_directory_iff.1 hd)⟩
      obtain ⟨c', hrun, hb⟩ := dropTable_ok h.settled hx hp ht hn'.1 hn'.2
      obtain ⟨w', hrun', hb'⟩ := dropTable_ok h.settled' hx (hdoom.trans hp) ht' hn.1 hn.2
      exact ⟨_, w', hrun', fun _ => ⟨c', hrun, (h.holdingFound x).withoutFile
        (get?_heldAfter hfound) hb.of_holdingFound hb'.of_holdingFound⟩⟩
    · obtain ⟨f, w', hrun', hf, -⟩ := dropTable_fails h.settled' hx (hdoom.trans hp) ht' hn
      exact ⟨_, w', hrun', fun hn => absurd hf (hn f rfl)⟩

theorem Alongside.createDatabase (h : Alongside good c w) (hx : Disk.IsName x) :
    InStep good (createDatabase x) c w := by
  obtain ⟨c', hrun, hb⟩ := createDatabase_run h.settled hx
  obtain ⟨w', hrun', hb'⟩ := createDatabase_run h.settled' hx
  have hhas : w.archive.disk.entries.has [x] = c.archive.disk.entries.has [x] := by
    rw [Bool.eq_iff_iff, OrderedMap.has, OrderedMap.has, Option.isSome_iff_ne_none,
      Option.isSome_iff_ne_none]
    exact not_congr (h.alike x []).eq_none_iff.symm
  have hcreated : w.created x = c.created x := by
    rw [created, created, h.resident, hhas, tooLong_congr h.root]
  rw [hcreated] at hrun' hb'
  refine ⟨_, w', hrun', fun _ => ⟨c', hrun, ?_⟩⟩
  cases hcr : c.created x with
  | error f =>
    rw [hcr] at hb hb'
    exact h.stays hb hb'
  | ok d =>
    rw [hcr] at hb hb'
    exact h.create hx (created_eq_ok hcr).1 hb hb'

theorem Alongside.dropDatabase (h : Alongside good c w) (hx : Disk.IsName x) :
    InStep good (dropDatabase x) c w := by
  obtain ⟨c', hrun, hb⟩ := dropDatabase_run h.settled hx
  obtain ⟨w', hrun', hb'⟩ := dropDatabase_run h.settled' hx
  have hdropped : w.dropped x = c.dropped x := by
    rw [dropped, dropped, h.isKept_eq, tooLong_congr h.root]
  rw [hdropped] at hrun' hb'
  refine ⟨_, w', hrun', fun _ => ⟨c', hrun, ?_⟩⟩
  cases hdr : c.dropped x with
  | error f =>
    rw [hdr] at hb hb'
    exact h.stays hb hb'
  | ok u =>
    rw [hdr] at hb hb'
    exact h.drop hb hb'

end Tabular.Catalog
