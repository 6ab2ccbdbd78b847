import Tabular.Proofs.Engine.Weather
import Tabular.Proofs.Engine.WriteThrough

/-!
# Work on a calm disk

Work that succeeds on a calm disk leaves it calm, and work that fails leaves the disk and the resident
databases as they were. So does every statement that fails, as long as the disk holds a book that the
resident databases agree with: a change that is worked out is then written.
-/

namespace Tabular

/-- A state that is calm stays calm. -/
theorem Action.Undeterred.calm_of_ok {σ ε α : Type} {good : σ → Prop} {calm : σ → σ}
    {m : Action σ ε α} (hm : Undeterred good calm m) {s t : σ} {a : α} (hs : good s)
    (hcalm : calm s = s) (h : m.run s = (.ok a, t)) : calm t = t := by
  have hrun := hm.ok_run hs h
  rw [hcalm, h] at hrun
  exact (Prod.mk.inj hrun).2.symm

namespace Catalog

variable {c c' : Catalog} {x t : Text} {d : Database} {f : Failure}

theorem Settled.calmed_eq (hc : c.Settled) : c.calmed = c := by
  rw [calmed, Archive.calmed, Disk.calmed_of_unrefused hc.proper.unrefused]

theorem Settled.honest (hc : c.Settled) : c.Honest := Disk.honest_of_unrefused hc.proper.unrefused

/-- A table that is dropped leaves its resident database, and the file in small letters goes. -/
theorem Settled.dropTable_eq_ok (hc : c.Settled) (hr : c.resident.get? x = some d)
    (ht : Name.IsWord t) {u : Unit} (h : (dropTable x t).run c = (.ok u, c')) :
    (∃ old, d.tables.get? t = some old) ∧
      c.Becomes (c.archive.withoutFile x t).disk (c.resident.put x (d.drop t)) c' := by
  have hcalm := (undeterred_dropTable x t).calm_of_ok hc.honest hc.calmed_eq h
  obtain ⟨old, hget, hb⟩ := Catalog.dropTable_eq_ok hc.honest (hc.calmed_eq.symm ▸ hc) hr
    (hc.plain.isName_fileName ht) h
  rw [Turns, hcalm, hc.calmed_eq] at hb
  rw [Database.get_eq_ok_iff, ht.small] at hget
  exact ⟨⟨old, hget⟩, hb⟩

/-- A table that is created is an empty one, and is written. -/
theorem Settled.createTable_eq_ok (hc : c.Settled) (hr : c.resident.get? x = some d)
    (ht : Name.IsWord t) {columns : List Text} {new : Table}
    (h : (createTable x t columns).run c = (.ok new, c')) :
    Table.create t columns = .ok new ∧ c.archive.Writable x t ∧
      c.Becomes (c.archive.putFile x t (Utf8.encode new.encode)).disk
        (c.resident.put x (d.replace new)) c' := by
  have hcalm := (undeterred_createTable x t columns).calm_of_ok hc.honest hc.calmed_eq h
  obtain ⟨-, hcreate, hw, hb⟩ := Catalog.createTable_eq_ok hc.honest (hc.calmed_eq.symm ▸ hc) hr
    (hc.plain.isName_fileName ht) h
  have hname : new.name = t := by rw [(Table.create_eq_ok hcreate).2]
  rw [Turns, hcalm, hc.calmed_eq, hname] at hb
  rw [hc.calmed_eq, hname] at hw
  exact ⟨hcreate, hw, hb⟩

theorem Settled.stays_of_use (hc : c.Settled) (hx : Disk.IsName x)
    (h : (use x).run c = (.error f, c')) : c.Stays c' := by
  obtain ⟨c₁, hrun, hb⟩ := use_run hc hx
  obtain ⟨hf, rfl⟩ := Prod.mk.inj (hrun.symm.trans h)
  rwa [heldAfter_of_error hf] at hb

theorem Settled.stays_of_createDatabase (hc : c.Settled) (hx : Disk.IsName x)
    (h : (createDatabase x).run c = (.error f, c')) : c.Stays c' := by
  obtain ⟨c₁, hrun, hb⟩ := createDatabase_run hc hx
  obtain ⟨hf, rfl⟩ := Prod.mk.inj (hrun.symm.trans h)
  rwa [hf] at hb

theorem Settled.stays_of_dropDatabase (hc : c.Settled) (hx : Disk.IsName x)
    (h : (dropDatabase x).run c = (.error f, c')) : c.Stays c' := by
  obtain ⟨c₁, hrun, hb⟩ := dropDatabase_run hc hx
  obtain ⟨hf, rfl⟩ := Prod.mk.inj (hrun.symm.trans h)
  rwa [hf] at hb

theorem Settled.stays_of_createTable (hc : c.Settled) (hr : c.resident.get? x = some d)
    (ht : Name.IsWord t) {columns : List Text}
    (h : (createTable x t columns).run c = (.error f, c')) : c.Stays c' := by
  have hx := (hc.isName (hc.isKept hr)).1
  cases hp : c.planned x t columns with
  | error g =>
    obtain ⟨c₁, hrun, hb⟩ := createTable_error hc hx hp
    cases hrun.symm.trans h
    rwa [heldAfter_of_get? hr] at hb
  | ok p =>
    obtain ⟨d', new⟩ := p
    have hname : new.name = t := by rw [(Table.create_eq_ok (planned_eq_ok hp).2.2).2]
    have hfile : Disk.IsName (c.archive.fileName new.name) :=
      hc.plain.isName_fileName (hname.symm ▸ ht)
    by_cases hw : c.archive.Writable x new.name
    · obtain ⟨c₁, hrun, -⟩ := createTable_ok hc hx hp hfile hw
      cases hrun.symm.trans h
    · obtain ⟨g, c₁, hrun, -, hb⟩ := createTable_fails hc hx hp hfile hw
      cases hrun.symm.trans h
      rwa [heldAfter_of_get? hr] at hb

theorem Settled.stays_of_dropTable (hc : c.Settled) (hr : c.resident.get? x = some d)
    (ht : Name.IsWord t) (h : (dropTable x t).run c = (.error f, c')) : c.Stays c' := by
  have hx := (hc.isName (hc.isKept hr)).1
  cases hp : c.doomed x t with
  | error g =>
    obtain ⟨c₁, hrun, hb⟩ := dropTable_error hc hx hp
    cases hrun.symm.trans h
    rwa [heldAfter_of_get? hr] at hb
  | ok p =>
    obtain ⟨d', old⟩ := p
    have hfile := hc.plain.isName_fileName ht
    by_cases hn : Disk.fits (c.archive.fileName t) ∧
        c.archive.disk.entries.get? [x, c.archive.fileName t] ≠ some .directory
    · obtain ⟨c₁, hrun, -⟩ := dropTable_ok hc hx hp hfile hn.1 hn.2
      cases hrun.symm.trans h
    · obtain ⟨g, c₁, hrun, -, hb⟩ := dropTable_fails hc hx hp hfile hn
      cases hrun.symm.trans h
      rwa [heldAfter_of_get? hr] at hb

end Catalog

namespace Engine

variable {e e' : Engine} {id x t : Text} {s : Statement} {book : Book} {f : Failure}

theorem stays_of_unselected (hs : s.isLocal) (hsel : e.selection id = none)
    (h : (perform id s).run e = (.error f, e')) : e.catalog.Stays e'.catalog := by
  rw [perform_unselected hs hsel] at h
  cases h
  exact .refl _

/-- A change that is worked out is written: a calm disk refuses nothing. -/
theorem Steady.stays_of_table (h : e.Steady) (hw : e.catalog.Written book) (ht : s.table? = some t)
    (hrun : (perform id s).run e = (.error f, e')) : e.catalog.Stays e'.catalog := by
  cases hsel : e.selection id with
  | none => exact stays_of_unselected (Statement.isLocal_of_table ht) hsel hrun
  | some x =>
    obtain ⟨-, d, hr⟩ := h.exists_database hsel
    rw [perform_table_run ht hsel (Catalog.table_resident hr t)] at hrun
    cases hp : (d.get t).mapError Failure.rejected >>= s.edit with
    | error g =>
      rw [hp] at hrun
      cases hrun
      exact .refl _
    | ok r =>
      obtain ⟨old, hget, hedit⟩ := Except.bind_eq_ok_iff.1 hp
      have hold := Database.get_eq_ok_iff.1 (Except.mapError_eq_ok_iff.1 hget)
      have hsound := (hw.holds.databases x d (hw.resident x d hr)).table_sound _ old hold
      obtain ⟨c, -, hcarry, -⟩ := hw.follows_carry hr hold (Statement.edit_fits hsound hedit)
      rw [hp] at hrun
      cases hrun.symm.trans (finish_run (e.withCatalog e.catalog) hcarry r.1)

/-- A statement that fails leaves the disk and the resident databases as they were. -/
theorem Steady.stays_of_error (h : e.Steady) (hw : e.catalog.Written book) (hs : s.Named)
    (hrun : (perform id s).run e = (.error f, e')) : e.catalog.Stays e'.catalog := by
  have hc := hw.settled
  cases s with
  | use x =>
    cases hu : (Catalog.use x).run e.catalog with
    | mk r c =>
      rw [perform_use_run id hu] at hrun
      cases r with
      | ok d => cases hrun
      | error g => cases hrun; exact hc.stays_of_use (Name.IsWord.isName hs) hu
  | createDatabase x =>
    cases hu : (Catalog.createDatabase x).run e.catalog with
    | mk r c =>
      rw [perform_createDatabase_run id hu] at hrun
      cases r with
      | ok d => cases hrun
      | error g => cases hrun; exact hc.stays_of_createDatabase (Name.IsWord.isName hs) hu
  | dropDatabase x =>
    cases hu : (Catalog.dropDatabase x).run e.catalog with
    | mk r c =>
      rw [perform_dropDatabase_run id hu] at hrun
      cases r with
      | ok d => cases hrun
      | error g => cases hrun; exact hc.stays_of_dropDatabase (Name.IsWord.isName hs) hu
  | createTable t columns =>
    cases hsel : e.selection id with
    | none => exact stays_of_unselected rfl hsel hrun
    | some x =>
      obtain ⟨-, d, hr⟩ := h.exists_database hsel
      cases hu : (Catalog.createTable x t columns).run e.catalog with
      | mk r c =>
        rw [perform_createTable_run hsel hu] at hrun
        cases r with
        | ok d => cases hrun
        | error g => cases hrun; exact hc.stays_of_createTable hr hs hu
  | dropTable t =>
    cases hsel : e.selection id with
    | none => exact stays_of_unselected rfl hsel hrun
    | some x =>
      obtain ⟨-, d, hr⟩ := h.exists_database hsel
      cases hu : (Catalog.dropTable x t).run e.catalog with
      | mk r c =>
        rw [perform_dropTable_run hsel hu] at hrun
        cases r with
        | ok d => cases hrun
        | error g => cases hrun; exact hc.stays_of_dropTable hr hs hu
  | join left right leftColumn rightColumn =>
    cases hsel : e.selection id with
    | none => exact stays_of_unselected rfl hsel hrun
    | some x =>
      obtain ⟨-, d, hr⟩ := h.exists_database hsel
      rw [perform_join_run hsel (Catalog.table_resident hr left)
        (Catalog.table_resident hr right)] at hrun
      have he : e'.catalog = e.catalog := by
        rw [← (Prod.mk.inj hrun).2]
        cases d.get left <;> rfl
      rw [he]
      exact .refl _
  | alterTable t action column => exact h.stays_of_table hw rfl hrun
  | insert t values => exact h.stays_of_table hw rfl hrun
  | select t columns condition => exact h.stays_of_table hw rfl hrun
  | update t assignments condition => exact h.stays_of_table hw rfl hrun
  | delete t condition => exact h.stays_of_table hw rfl hrun

end Engine

end Tabular
