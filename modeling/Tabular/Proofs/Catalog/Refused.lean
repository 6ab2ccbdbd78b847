import Tabular.Proofs.Archive.RefusedTables
import Tabular.Proofs.Catalog.Tables
import Tabular.Proofs.Table.Changes

/-!
# Work of a catalog on a disk that refuses

What each piece of work comes to on a disk with refusals of its own. Work that succeeds does what it
does on the calm disk. Work that fails leaves the resident databases as they were, but for a table
whose change was made here before it could be written.
-/

namespace Tabular.Catalog

open Tabular.Action

/-- The catalog on the calm disk. -/
def calmed (c : Catalog) : Catalog := { c with archive := c.archive.calmed }

/-- A catalog on an honest disk. -/
abbrev Honest (c : Catalog) : Prop := c.archive.Honest

/-- The catalog with another tree and other resident databases, whatever the counts and the refusals
are. -/
abbrev Turns (c : Catalog) (disk : Disk) (resident : OrderedMap Text Database) (c' : Catalog) : Prop :=
  c.calmed.Becomes disk resident c'.calmed

/-- The catalog as it was, but for the counts and the refusals. -/
abbrev Same (c c' : Catalog) : Prop := c.Turns c.archive.disk.calmed c.resident c'

variable {α : Type} {c c' : Catalog} {x t : Text}

theorem Same.refl (c : Catalog) : c.Same c := Becomes.refl c.calmed

theorem Same.trans_turns {c'' : Catalog} {disk : Disk} {r : OrderedMap Text Database}
    (h : c.Same c') (h' : c'.Turns disk r c'') : c.Turns disk r c'' := Becomes.trans h h'

theorem Same.trans {c'' : Catalog} (h : c.Same c') (h' : c'.Same c'') : c.Same c'' := by
  have hd : c'.archive.disk.calmed = c.archive.disk.calmed := h.disk
  have hr : c'.resident = c.resident := h.resident
  rw [Same, hd, hr] at h'
  exact h.trans_turns h'

/-- The archive turns, and other databases are resident. -/
theorem turns_of_archive (c : Catalog) {a : Archive} {disk : Disk} (h : c.archive.Turns disk a)
    (r : OrderedMap Text Database) : c.Turns disk r { c with archive := a, resident := r } :=
  ⟨h.disk, h.suffix, h.safe, h.stamp, rfl, rfl⟩

theorem turns_withArchive (c : Catalog) {a : Archive} {disk : Disk} (h : c.archive.Turns disk a) :
    c.Turns disk c.resident { c with archive := a } := c.turns_of_archive h c.resident

/-! ## What is not deterred -/

theorem undeterred_onArchive {good : Archive → Prop} {w : Archive.Work α}
    (hw : Undeterred good Archive.calmed w) :
    Undeterred (fun c => good c.archive) calmed (onArchive w) :=
  undeterred_within hw (fun _ h => h) (fun _ _ h => h) (fun _ => rfl) fun _ _ => rfl

theorem keeps_onArchive {w : Archive.Work α} (hw : Keeps Archive.Same w) :
    Keeps Same (onArchive w) := fun c => c.turns_withArchive (hw c.archive)

theorem undeterred_check (y : Except Rejection α) : Undeterred Honest calmed (check y) :=
  undeterred_give _

theorem undeterred_held (good : Archive → Prop) {g : Catalog → Catalog}
    (hg : ∀ c, (g c).archive = c.archive) (hc : ∀ c, g c.calmed = (g c).calmed) :
    Undeterred (fun c => good c.archive) calmed (change g : Work Unit) := by
  refine undeterred_change (fun c h => ?_) hc
  rw [hg]
  exact h

theorem undeterred_evict (x : Text) : Undeterred Honest calmed (evict x) := by
  refine undeterred_held Archive.Honest (fun c => ?_) fun c => ?_
  · split <;> rfl
  · change (if c.resident.has x then _ else _) = _
    split <;> rfl

theorem undeterred_replace (x : Text) (t : Table) : Undeterred Honest calmed (replace x t) := by
  refine undeterred_held Archive.Honest (fun c => ?_) fun c => ?_
  · split <;> rfl
  · simp only [calmed]
    cases c.resident.get? x <;> rfl

theorem undeterred_loadDatabase (x : Text) : Undeterred Honest calmed (load x) := by
  refine undeterred_bind (undeterred_onArchive (Archive.undeterred_tables x)) fun names => ?_
  refine undeterred_bind (undeterred_onArchive (undeterred_forEach (Archive.undeterred_load x) names))
    fun tables => ?_
  refine undeterred_bind (undeterred_check _) fun d => ?_
  exact undeterred_bind (undeterred_held Archive.Honest (fun _ => rfl) fun _ => rfl) fun _ =>
    undeterred_pure d

theorem undeterred_use (x : Text) : Undeterred Honest calmed (use x) := by
  refine undeterred_bind (undeterred_onArchive (Archive.undeterred_hasDatabase x)) fun kept => ?_
  split
  · refine undeterred_look (fun held => ?_) fun _ => rfl
    split
    · exact undeterred_pure _
    · exact undeterred_loadDatabase x
  · exact undeterred_bind (undeterred_evict x) fun _ => undeterred_fail _

theorem undeterred_database (x : Text) : Undeterred Honest calmed (Catalog.database x) := by
  refine undeterred_look (fun held => ?_) fun _ => rfl
  split
  · exact undeterred_pure _
  · exact undeterred_use x

theorem undeterred_dropDatabase (x : Text) : Undeterred Honest calmed (dropDatabase x) := by
  refine undeterred_bind (undeterred_onArchive (Archive.undeterred_hasDatabase x)) fun kept => ?_
  split
  · exact undeterred_bind (undeterred_onArchive (Archive.undeterred_dropDatabase x)) fun _ =>
      undeterred_evict x
  · exact undeterred_bind (undeterred_evict x) fun _ => undeterred_fail _

theorem undeterred_createTable (x t : Text) (columns : List Text) :
    Undeterred Honest calmed (createTable x t columns) := by
  refine undeterred_bind (undeterred_database x) fun d => ?_
  split
  · exact undeterred_fail _
  · refine undeterred_bind (undeterred_check _) fun new => ?_
    refine undeterred_bind (undeterred_onArchive (Archive.undeterred_save x new)) fun _ => ?_
    exact undeterred_bind (undeterred_replace x new) fun _ => undeterred_pure new

theorem undeterred_dropTable (x t : Text) : Undeterred Honest calmed (dropTable x t) := by
  refine undeterred_bind (undeterred_database x) fun d => ?_
  refine undeterred_bind (undeterred_check _) fun _ => ?_
  refine undeterred_bind (undeterred_onArchive (Archive.undeterred_deleteTable x t)) fun _ => ?_
  exact undeterred_bind (undeterred_check _) fun _ =>
    undeterred_held Archive.Honest (fun _ => rfl) fun _ => rfl

theorem undeterred_persistInsert (x : Text) (t : Table) (row : Row) :
    Undeterred Honest calmed (persistInsert x t row) := by
  refine undeterred_look (fun mode => ?_) fun _ => rfl
  cases mode with
  | whole => exact undeterred_onArchive (Archive.undeterred_save x t)
  | append => exact undeterred_onArchive (Archive.undeterred_appendRow x t row)

theorem undeterred_carry (x : Text) (edit : Edit) : Undeterred Honest calmed (edit.carry x) := by
  cases edit with
  | none => exact undeterred_pure ()
  | whole t =>
    exact undeterred_bind (undeterred_replace x t) fun _ =>
      undeterred_onArchive (Archive.undeterred_save x t)
  | row t r =>
    exact undeterred_bind (undeterred_replace x t) fun _ => undeterred_persistInsert x t r

theorem undeterred_createDatabase (hx : Disk.IsName x) :
    Undeterred (fun c => c.archive.disk.Rooted) calmed (createDatabase x) := by
  have hkept : Undeterred (fun a => a.disk.Rooted) Archive.calmed (Archive.hasDatabase x) :=
    Archive.undeterred_onDisk (Disk.undeterred_rooted (Disk.undeterred_isDirectory _)
      (Disk.keeps_isDirectory _))
  refine undeterred_look (fun held => ?_) fun _ => rfl
  split
  · exact undeterred_fail _
  · refine undeterred_bind (undeterred_onArchive hkept) fun kept => ?_
    split
    · exact undeterred_fail _
    · refine undeterred_bind (undeterred_onArchive (Archive.undeterred_createDatabase hx)) fun _ => ?_
      exact undeterred_bind (undeterred_held (fun a => a.disk.Rooted) (fun _ => rfl) fun _ => rfl)
        fun _ => undeterred_pure _

/-! ## Failures that change nothing -/

theorem loadDatabase_eq_error {f : Failure} (h : (load x).run c = (.error f, c')) : c.Same c' := by
  have htables := keeps_onArchive (Archive.keeps_tables x)
  have hall := fun names => keeps_onArchive
    (keeps_forEach Archive.Same.refl Archive.Same.trans (Archive.keeps_load x) names)
  obtain h | ⟨names, b, hb, h⟩ := run_bind_eq_error h
  · exact htables.of_run h
  · have hsame := htables.of_run hb
    obtain h | ⟨tables, b', hb', h⟩ := run_bind_eq_error h
    · exact hsame.trans ((hall names).of_run h)
    · have hsame' := hsame.trans ((hall names).of_run hb')
      obtain h | ⟨d, b'', -, h⟩ := run_bind_eq_error h
      · rw [check_run] at h
        cases (Prod.mk.inj h).2
        exact hsame'
      · cases h

/-- A database that is not there was not resident. -/
theorem has_eq_false_of_run (hh : c.Honest) (hc : c.calmed.Settled) (hx : Disk.IsName x)
    (h : (onArchive (Archive.hasDatabase x)).run c = (.ok false, c')) :
    c'.resident.has x = false := by
  have hres : c'.resident = c.resident :=
    ((keeps_onArchive (Archive.keeps_hasDatabase x)).of_run h).resident
  have hcalm := (undeterred_onArchive (Archive.undeterred_hasDatabase x)).ok_run hh h
  rw [hres]
  cases hfit : Disk.fits x with
  | false =>
    rw [onArchive_eq (Archive.hasDatabase_error hc.proper.toCalm hx hfit)] at hcalm
    cases hcalm
  | true =>
    rw [onArchive_eq (Archive.hasDatabase_run hc.proper.toCalm hx hfit)] at hcalm
    exact has_eq_false_of_not_kept hc (Except.ok.inj (Prod.mk.inj hcalm).1)

theorem use_eq_error (hh : c.Honest) (hc : c.calmed.Settled) (hx : Disk.IsName x) {f : Failure}
    (h : (use x).run c = (.error f, c')) : c.Same c' := by
  have hhas := keeps_onArchive (Archive.keeps_hasDatabase x)
  obtain h | ⟨kept, b, hb, h⟩ := run_bind_eq_error h
  · exact hhas.of_run h
  · have hsame := hhas.of_run hb
    cases kept with
    | false =>
      have h : (evict x >>= fun _ => refuse (.unknownDatabase x) : Work Database).run b = _ := h
      rw [run_bind_ok (evict_run (has_eq_false_of_run hh hc hx hb))] at h
      cases h
      exact hsame
    | true =>
      rw [if_pos rfl, run_bind_ok (run_look _ _)] at h
      cases hr : b.resident.get? x with
      | some d => simp only [hr] at h; cases h
      | none =>
        simp only [hr] at h
        exact hsame.trans (loadDatabase_eq_error h)

theorem createDatabase_eq_error (hh : c.Honest) (hc : c.calmed.Settled) (hx : Disk.IsName x)
    {f : Failure} (h : (createDatabase x).run c = (.error f, c')) : c.Same c' := by
  have hhas := keeps_onArchive (Archive.keeps_hasDatabase x)
  rw [createDatabase, run_bind_ok (run_look _ _)] at h
  split at h
  · cases h; exact .refl c
  · obtain h | ⟨kept, b, hb, h⟩ := run_bind_eq_error h
    · exact hhas.of_run h
    · have hsame := hhas.of_run hb
      cases kept with
      | true => cases h; exact hsame
      | false =>
        have hdisk : b.archive.disk.calmed = c.archive.disk.calmed := hsame.disk
        have hroot : b.archive.disk.entries.get? [] = some .directory := by
          rw [← Disk.calmed_entries, hdisk]
          exact hc.proper.root
        have hbh := (undeterred_onArchive (Archive.undeterred_hasDatabase x)).good_of_run hh hb
        obtain h | ⟨u, b', -, h⟩ := run_bind_eq_error h
        · obtain ⟨hrun, rfl⟩ := Prod.mk.inj h
          exact hsame.trans (b.turns_withArchive
            (Archive.createDatabase_eq_error hbh hroot hx (Prod.ext hrun rfl)))
        · cases h

/-! ## Failures that leave something behind -/

/-- A database that could not be dropped is as it was or has lost its files. -/
theorem dropDatabase_eq_error (hh : c.Honest) (hc : c.calmed.Settled) (hx : Disk.IsName x)
    {f : Failure} (h : (dropDatabase x).run c = (.error f, c')) :
    c.Same c' ∨ c.Turns (c.archive.disk.calmed.emptied [x]) c.resident c' ∧
      c.archive.isKept x ∧ ∃ p e, f = .rejected (.storage (.removeDirectory p e)) := by
  have hhas := keeps_onArchive (Archive.keeps_hasDatabase x)
  obtain h | ⟨kept, b, hb, h⟩ := run_bind_eq_error h
  · exact .inl (hhas.of_run h)
  · have hsame := hhas.of_run hb
    cases kept with
    | false =>
      have h : (evict x >>= fun _ => refuse (.unknownDatabase x) : Work Unit).run b = _ := h
      rw [run_bind_ok (evict_run (has_eq_false_of_run hh hc hx hb))] at h
      cases h
      exact .inl hsame
    | true =>
      obtain h | ⟨u, b', -, h⟩ := run_bind_eq_error h
      · obtain ⟨hrun, rfl⟩ := Prod.mk.inj h
        have hbh := (undeterred_onArchive (Archive.undeterred_hasDatabase x)).good_of_run hh hb
        have hdisk : b.archive.disk.calmed = c.archive.disk.calmed := hsame.disk
        have hkeep := (undeterred_onArchive (Archive.undeterred_hasDatabase x)).ok_run hh hb
        have hfit : Disk.fits x := by
          cases hfit : Disk.fits x with
          | true => rfl
          | false =>
            rw [onArchive_eq (Archive.hasDatabase_error hc.proper.toCalm hx hfit)] at hkeep
            cases hkeep
        have hcalm : b.archive.calmed.disk.Calm := by
          change b.archive.disk.calmed.Calm
          rw [hdisk]
          exact hc.proper.toCalm
        obtain hs | ⟨hs, hk, hf⟩ :=
          Archive.dropDatabase_eq_error hbh hcalm hx hfit (Prod.ext hrun rfl)
        · exact .inl (hsame.trans (b.turns_withArchive hs))
        · refine .inr ⟨hsame.trans_turns ?_, ?_, hf⟩
          · have hr : b.resident = c.resident := hsame.resident
            rw [← hdisk, ← hr]
            exact b.turns_withArchive hs
          · rw [Archive.isKept, ← Disk.calmed_entries, hdisk] at hk
            exact hk
      · rw [evict, run_change] at h
        cases h

section Resident

variable {d : Database}

/-- A resident database is found at once. -/
theorem database_resident (hr : c.resident.get? x = some d) :
    (Catalog.database x).run c = (.ok d, c) := by
  rw [Catalog.database, run_bind_ok (run_look _ _), hr]
  rfl

theorem table_resident (hr : c.resident.get? x = some d) (t : Text) :
    (table x t).run c = ((d.get t).mapError Failure.rejected, c) := by
  rw [table, run_bind_ok (database_resident hr)]
  rfl

/-- A table that could not be made is not there; its temporary file may be. -/
theorem createTable_eq_error (hh : c.Honest) (hc : c.calmed.Settled) (hr : c.resident.get? x = some d)
    (ht : Disk.IsName (c.archive.fileName t)) {columns : List Text} {f : Failure}
    (h : (createTable x t columns).run c = (.error f, c')) :
    c.Same c' ∨ f.OfWriting ∧ c'.resident = c.resident ∧
      c.archive.LeavesDraft x t c'.archive ∧ c'.mode = c.mode := by
  rw [createTable, run_bind_ok (database_resident hr)] at h
  split at h
  · cases h; exact .inl (.refl c)
  · cases hcr : Table.create t columns with
    | error e =>
      rw [hcr, run_bind, check_run] at h
      cases h
      exact .inl (.refl c)
    | ok new =>
      have hname : new.name = t := by rw [(Table.create_eq_ok hcr).2]
      rw [hcr, run_bind, check_run] at h
      obtain h | ⟨u, b, -, h⟩ := run_bind_eq_error h
      · obtain ⟨hrun, rfl⟩ := Prod.mk.inj h
        have hplain : c.archive.Plain := hc.plain.congr rfl rfl
        obtain ⟨hf, hs | hs⟩ := Archive.save_eq_error hplain hh hc.proper.toCalm
          (hc.isName (hc.isKept hr)).1 (hname ▸ ht) (Prod.ext hrun rfl)
        · exact .inl (c.turns_withArchive hs)
        · exact .inr ⟨hf, rfl, hname ▸ hs, rfl⟩
      · rw [replace, run_bind_ok (run_change _ _)] at h
        cases h

/-- A table that could not be dropped is still there. -/
theorem dropTable_eq_error (hh : c.Honest) (hr : c.resident.get? x = some d) {f : Failure}
    (h : (dropTable x t).run c = (.error f, c')) : c.Same c' := by
  rw [dropTable, run_bind_ok (database_resident hr)] at h
  obtain h | ⟨old, b, hb, h⟩ := run_bind_eq_error h
  · rw [check_run] at h
    cases (Prod.mk.inj h).2
    exact .refl c
  · rw [check_run] at hb
    obtain ⟨hget, rfl⟩ := Prod.mk.inj hb
    have hget := Except.mapError_eq_ok_iff.1 hget
    obtain h | ⟨u, b, -, h⟩ := run_bind_eq_error h
    · obtain ⟨hrun, rfl⟩ := Prod.mk.inj h
      exact c.turns_withArchive (Archive.deleteTable_eq_error hh (Prod.ext hrun rfl))
    · have hrem : d.remove t = .ok (old, d.drop t) := by
        rw [Database.remove, hget]
        rfl
      rw [hrem] at h
      cases h

end Resident

end Tabular.Catalog
