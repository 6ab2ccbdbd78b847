import Tabular.Proofs.Catalog.Sane

/-!
# Standing tables

A table stands in a database if its file is its text and the database, if it is resident, holds the
table. While the database is not resident, the next id is what the rows in the file make it. A table
stands until it is dropped with its name or with its database, as long as no call to the disk fails,
and its next id does not decrease.
-/

namespace Tabular

namespace Table

theorem nextId_of_addColumn {t new : Table} {column : Text} (h : t.addColumn column = .ok new) :
    new.nextId = t.nextId := by
  obtain ⟨-, rfl⟩ := addColumn_eq_ok h
  rfl

theorem nextId_of_dropColumn {t new : Table} {column : Text} (h : t.dropColumn column = .ok new) :
    new.nextId = t.nextId := by
  obtain ⟨-, i, -, rfl⟩ := dropColumn_eq_ok h
  rfl

end Table

/-- What fails to be written fails because of a call to the disk. -/
theorem Failure.OfWriting.ofDisk {f : Failure} (h : f.OfWriting) : f.OfDisk := by
  unfold OfWriting at h
  split at h <;> trivial

/-- The statement changes the table into another one. -/
def Statement.Turns (s : Statement) (old new : Table) : Prop :=
  ∃ result change, s.edit old = .ok (result, change) ∧ change.table? = some new

/-- No change of a table takes its next id back. -/
theorem Statement.Turns.nextId_le {s : Statement} {old new : Table} (h : s.Turns old new) :
    old.nextId ≤ new.nextId := by
  obtain ⟨result, change, h, hn⟩ := h
  cases asks_of_edit h with
  | add made =>
    cases hn
    exact (Table.nextId_of_addColumn made).ge
  | drop made =>
    cases hn
    exact (Table.nextId_of_dropColumn made).ge
  | insert made =>
    cases hn
    obtain ⟨-, -, -, -, -, rfl⟩ := Table.insert_eq_ok made
    exact Nat.le_succ _
  | select => cases hn
  | update made =>
    obtain ⟨_, _, -, -, -, rfl⟩ := Table.update_eq_ok made
    split at hn <;> cases hn
    exact le_refl _
  | delete made =>
    obtain ⟨_, -, -, rfl⟩ := Table.delete_eq_ok made
    split at hn <;> cases hn
    exact le_refl _
  | nothing => cases hn

namespace Catalog

/-- A table that stands under its name in a database. -/
structure Stands (c : Catalog) (x t : Text) (u : Table) : Prop where
  kept : c.archive.isKept x
  sound : u.Sound
  name : u.name = t
  small : Text.lower t = t
  file : c.archive.disk.entries.get? [x, c.archive.fileName t] = some (.file (Utf8.encode u.encode))
  resident : ∀ d, c.resident.get? x = some d → d.tables.get? t = some u
  away : c.resident.get? x = none → u.nextId = Table.followingId u.rows

variable {c c' : Catalog} {x y t : Text} {d : Database} {u v : Table} {disk : Disk}
  {r : OrderedMap Text Database} {s : Statement} {selected : Option Text}

/-- Refusals do not matter to a table that stands. -/
theorem stands_calmed : c.calmed.Stands x t u ↔ c.Stands x t u :=
  ⟨fun h => ⟨h.kept, h.sound, h.name, h.small, h.file, h.resident, h.away⟩,
    fun h => ⟨h.kept, h.sound, h.name, h.small, h.file, h.resident, h.away⟩⟩

/-- What is in the file is the table with the next id that its rows make. -/
theorem Stands.fetch_eq (h : c.Stands x t u) : c.archive.fetch x t =
    .ok { u with nextId := Table.followingId u.rows } :=
  Archive.fetch_eq_ok_iff.2 ⟨h.name, rfl, _, h.file, Archive.readsAs_encode h.sound⟩

/-- Neither the directory, nor the file, nor the resident table changes. -/
theorem Stands.beside (h : c.Stands x t u) (hb : c.Becomes disk r c')
    (hk : disk.entries.get? [x] = c.archive.disk.entries.get? [x])
    (hf : disk.entries.get? [x, c.archive.fileName t] =
      c.archive.disk.entries.get? [x, c.archive.fileName t])
    (hr : ∀ d, r.get? x = some d → d.tables.get? t = some u)
    (ha : r.get? x = none → c.resident.get? x = none) : c'.Stands x t u where
  kept := by
    rw [Archive.isKept, hb.disk, hk]
    exact h.kept
  sound := h.sound
  name := h.name
  small := h.small
  file := by rw [hb.disk, Archive.fileName_congr hb.suffix, hf, h.file]
  resident := by rw [hb.resident]; exact hr
  away := fun hn => h.away (ha (hb.resident ▸ hn))

theorem Stands.stays (h : c.Stands x t u) (hb : c.Stays c') : c'.Stands x t u :=
  h.beside hb rfl rfl h.resident id

/-- Something changes in other databases only. -/
theorem Stands.elsewhere (h : c.Stands x t u) (hb : c.Becomes disk r c')
    (hd : ∀ names, disk.entries.get? (x :: names) = c.archive.disk.entries.get? (x :: names))
    (hr : r.get? x = c.resident.get? x) : c'.Stands x t u :=
  h.beside hb (hd []) (hd _) (fun d hx => h.resident d (hr ▸ hx)) fun hn => hr ▸ hn

/-- A resident database changes, but neither this table nor its file. -/
theorem Stands.reshaped (h : c.Stands x t u) (hr : c.resident.get? y = some d) {d' : Database}
    (hd : y = x → d'.tables.get? t = d.tables.get? t) (hb : c.Becomes disk (c.resident.put y d') c')
    (hk : disk.entries.get? [x] = c.archive.disk.entries.get? [x])
    (hf : disk.entries.get? [x, c.archive.fileName t] =
      c.archive.disk.entries.get? [x, c.archive.fileName t]) : c'.Stands x t u := by
  refine h.beside hb hk hf (fun e he => ?_) fun hn => ?_
  · rw [OrderedMap.get?_put] at he
    split at he
    · next hyx =>
      cases he
      exact (hd hyx).trans (h.resident d (hyx ▸ hr))
    · exact h.resident e he
  · rw [OrderedMap.get?_put] at hn
    split at hn
    · cases hn
    · exact hn

/-- Another table of a resident database changes, or one of another database. -/
theorem Stands.putFile_other (h : c.Stands x t u) (hr : c.resident.get? y = some d) {content : Bytes}
    (hne : y = x → Text.lower v.name ≠ t)
    (hb : c.Becomes (c.archive.putFile y v.name content).disk (c.resident.put y (d.replace v)) c') :
    c'.Stands x t u := by
  have hpath : [y, c.archive.fileName v.name] ≠ [x, c.archive.fileName t] := by
    intro hp
    obtain ⟨hyx, hrest⟩ := List.cons.inj hp
    refine hne hyx ?_
    rw [Archive.fileName_injective (List.cons.inj hrest).1]
    exact h.small
  exact h.reshaped hr (fun hyx => OrderedMap.get?_put_other _ _ (hne hyx)) hb
    (OrderedMap.get?_put_other _ _ (by simp)) (OrderedMap.get?_put_other _ _ hpath)

/-- Another table of a resident database is dropped, or one of another database. -/
theorem Stands.withoutFile_other (h : c.Stands x t u) (hr : c.resident.get? y = some d) {t' : Text}
    (hsmall : Text.lower t' = t') (hne : y = x → t' ≠ t)
    (hb : c.Becomes (c.archive.withoutFile y t').disk (c.resident.put y (d.drop t')) c') :
    c'.Stands x t u := by
  have hpath : [y, c.archive.fileName t'] ≠ [x, c.archive.fileName t] := by
    intro hp
    obtain ⟨hyx, hrest⟩ := List.cons.inj hp
    exact hne hyx (Archive.fileName_injective (List.cons.inj hrest).1)
  have hdrop : y = x → (d.drop t').tables.get? t = d.tables.get? t := by
    intro hyx
    rw [Database.drop, hsmall, OrderedMap.get?_erase_other _ (hne hyx)]
  exact h.reshaped hr hdrop hb (OrderedMap.get?_erase_other _ (by simp))
    (OrderedMap.get?_erase_other _ hpath)

/-- A table that is written stands. -/
theorem stands_putFile (hc : c.Settled) (hr : c.resident.get? x = some d) (hv : v.Sound)
    (hsmall : Text.lower v.name = v.name)
    (hb : c.Becomes (c.archive.putFile x v.name (Utf8.encode v.encode)).disk
      (c.resident.put x (d.replace v)) c') : c'.Stands x v.name v where
  kept := by
    have hother := OrderedMap.get?_put_other c.archive.disk.entries
      (.file (Utf8.encode v.encode)) (show [x, c.archive.fileName v.name] ≠ [x] by simp)
    rw [Archive.isKept, hb.disk]
    exact (congrArg (· == some Entry.directory) hother).trans (hc.isKept hr)
  sound := hv
  name := rfl
  small := hsmall
  file := by
    rw [hb.disk, Archive.fileName_congr hb.suffix]
    exact OrderedMap.get?_put_same ..
  resident := by
    intro d' hd'
    rw [hb.resident, OrderedMap.get?_put_same] at hd'
    cases hd'
    rw [Database.replace, hsmall, OrderedMap.get?_put_same]
  away := by
    intro hn
    rw [hb.resident, OrderedMap.get?_put_same] at hn
    cases hn

/-- A change that is carried out is one of the table's file. -/
theorem Carried.exists_putFile {edit : Edit} (h : c.Carried x edit disk)
    (hn : edit.table? = some v) : ∃ content, disk = (c.archive.putFile x v.name content).disk := by
  cases h <;> cases hn <;> exact ⟨_, rfl⟩

/-- A standing table that changes is written, in one way or the other. -/
theorem Stands.carried_eq (h : c.Stands x t u) {edit : Edit} (hw : c.Carried x edit disk)
    (hfit : edit.Fits u) (hn : edit.table? = some v) :
    disk = (c.archive.putFile x v.name (Utf8.encode v.encode)).disk := by
  cases hw with
  | none => cases hn
  | whole => cases hn; rfl
  | row => cases hn; rfl
  | @line _ row content mode file =>
    cases hn
    obtain ⟨-, -, -, n, rfl⟩ := hfit
    obtain rfl : u.name = t := h.name
    cases h.file.symm.trans file
    rw [Table.encode_append_row, Utf8.encode_append]

/-- A standing table changes. -/
theorem Stands.edited (h : c.Stands x t u) (hc : c.Sane) (hr : c.resident.get? x = some d)
    {result : Result} {edit : Edit} (hw : s.edit u = .ok (result, edit))
    (hwritten : c.Carried x edit disk) (hn : edit.table? = some v)
    (hb : c.Becomes disk (edit.made x d c.resident) c') : c'.Stands x t v := by
  have hname := (hc.holdable_edit hr (h.resident d hr) hw hn)
  have hvt : v.name = t := hname.2.trans h.name
  rw [h.carried_eq hwritten (Statement.edit_fits h.sound hw) hn, Edit.made, hn] at hb
  subst hvt
  exact stands_putFile hc.settled hr hname.1.sound h.small hb

/-! ## Statements -/

/-- A table stands, as it is, while databases are looked for and loaded. -/
theorem Stands.use (h : c.Stands x t u) (hc : c.Sane)
    (hb : c.Becomes c.archive.disk (c.heldAfter y) c') : c'.Stands x t u := by
  refine h.beside hb rfl rfl (fun d hd => ?_) get?_eq_none_of_heldAfter
  obtain hd | ⟨rfl, hnone, hdb⟩ := of_get?_heldAfter hd
  · exact h.resident d hd
  · obtain ⟨-, -, -, hget⟩ := Archive.database_eq_ok hc.settled.plain.suffix_ne hdb
    obtain rfl : u.name = t := h.name
    have hf := h.fetch_eq
    rw [← h.away hnone] at hf
    exact (hget _ u).2 ⟨h.small, hf⟩

/-- The change of any table leaves a standing one as it is, or is a change of that one. -/
theorem Stands.edit (h : c.Stands x t u) (hc : c.Sane) {t' : Text} {old : Table} {result : Result}
    {edit : Edit} (held : c.resident.get? y = some d)
    (there : d.tables.get? (Text.lower t') = some old) (worked : s.edit old = .ok (result, edit))
    (written : c.Carried y edit disk) (hb : c.Becomes disk (edit.made y d c.resident) c') :
    ∃ v, c'.Stands x t v ∧ (v = u ∨ (y = x ∧ Text.lower t' = t) ∧ s.Turns u v) := by
  cases hn : edit.table? with
  | none =>
    refine ⟨u, ?_, .inl rfl⟩
    rw [Edit.made, hn] at hb
    cases written <;> first | exact h.stays hb | cases hn
  | some new =>
    have hnew := (hc.holdable_edit held there worked hn).1
    by_cases hsame : y = x ∧ Text.lower t' = t
    · obtain ⟨rfl, hkey⟩ := hsame
      have hold := h.resident d held
      rw [← hkey] at hold
      cases there.symm.trans hold
      exact ⟨new, h.edited hc held worked written hn hb, .inr ⟨⟨rfl, hkey⟩, _, _, worked, hn⟩⟩
    · obtain ⟨content, rfl⟩ := written.exists_putFile hn
      rw [Edit.made, hn] at hb
      refine ⟨u, h.putFile_other held (fun hyx hk => hsame ⟨hyx, ?_⟩) hb, .inl rfl⟩
      exact hnew.key_eq.symm.trans hk

/-- A statement that succeeds leaves a table standing unless it drops it, and as it is unless it
changes it. -/
theorem Stands.succeeds (h : c.Stands x t u) (hc : c.Sane) (hs : s.Named) {result : Result}
    (hdo : c.Succeeds selected s result disk r) (hb : c.Becomes disk r c')
    (hd : s ≠ .dropDatabase x) (ht : selected = some x → s ≠ .dropTable t) :
    ∃ v, c'.Stands x t v ∧ (v = u ∨ (selected = some x ∧ s.table? = some t) ∧ s.Turns u v) := by
  cases hdo with
  | use => exact ⟨u, h.use hc hb, .inl rfl⟩
  | join => exact ⟨u, h.stays hb, .inl rfl⟩
  | @createDatabase y fits free =>
    -- The directory of the table's own database is there, so that it is not the one that is made.
    have hyx : y ≠ x := by
      rintro rfl
      cases free.symm.trans (beq_iff_eq.1 h.kept)
    refine ⟨u, h.elsewhere hb (fun names => ?_) (OrderedMap.get?_put_other _ _ hyx), .inl rfl⟩
    exact OrderedMap.get?_put_other _ _ (by simp [hyx])
  | @dropDatabase y =>
    have hyx : y ≠ x := fun he => hd (congrArg Statement.dropDatabase he)
    refine ⟨u, h.elsewhere hb (fun names => ?_) (OrderedMap.get?_erase_other _ hyx), .inl rfl⟩
    rw [Disk.get?_cut_cons, if_neg hyx]
  | @createTable y t' columns d new chosen held fresh created writable =>
    have hname : new.name = t' := by rw [(Table.create_eq_ok created).2]
    refine ⟨u, h.putFile_other held ?_ hb, .inl rfl⟩
    rintro rfl hnew
    have hthere := h.resident d held
    rw [hname] at hnew
    rw [Database.has, OrderedMap.has, hnew, hthere] at fresh
    cases fresh
  | @dropTable y t' d old chosen held there =>
    refine ⟨u, h.withoutFile_other held (Name.IsWord.small hs) ?_ hb, .inl rfl⟩
    rintro rfl rfl
    exact ht chosen rfl
  | @edit s y t' d old result edit disk about chosen held there worked written =>
    obtain ⟨v, hv, hsame | ⟨⟨rfl, hkey⟩, hturns⟩⟩ := h.edit hc held there worked written hb
    · exact ⟨v, hv, .inl hsame⟩
    · have hsmall := (Statement.named_table hs about).small
      exact ⟨v, hv, .inr ⟨⟨chosen, by rw [about, ← hsmall, hkey]⟩, hturns⟩⟩

/-- So does one that fails, unless a call to the disk failed. -/
theorem Stands.fails (h : c.Stands x t u) {f : Failure} (hf : ¬ f.OfDisk)
    (hdo : c.Fails selected s f disk r) (hb : c.Becomes disk r c') : c'.Stands x t u := by
  have hwriting : ¬ f.OfWriting := fun hw => hf hw.ofDisk
  cases hdo with
  | unchanged => exact h.stays hb
  | unworked => exact h.stays hb
  | emptied => exact absurd trivial hf
  | draft _ _ writing => exact absurd writing hwriting
  | edit _ _ _ _ _ _ left =>
    cases left with
    | unwritten writing => exact absurd writing hwriting
    | draft writing => exact absurd writing hwriting
    | line writing => exact absurd writing hwriting
    | missing => exact absurd trivial hf

/-- A row is inserted into a standing table. -/
theorem Stands.inserted (h : c.Stands x t u) (hc : c.Sane) {values : List Value} {result : Result}
    (hdo : c.Succeeds (some x) (.insert t values) result disk r) (hb : c.Becomes disk r c') :
    ∃ row v, u.insert values = .ok (row, v) ∧ c'.Stands x t v := by
  cases hdo with
  | @edit _ y t' d old _ edit disk about chosen held there worked written =>
    cases about
    cases chosen
    rw [h.small] at there
    cases there.symm.trans (h.resident d held)
    obtain ⟨⟨row, new⟩, hins, he⟩ := Except.bind_eq_ok_iff.1 worked
    cases he
    exact ⟨row, new, hins, h.edited hc held worked written rfl hb⟩

end Catalog

end Tabular
