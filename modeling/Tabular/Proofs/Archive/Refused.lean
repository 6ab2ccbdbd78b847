import Tabular.Proofs.Archive.Work
import Tabular.Proofs.Disk.Refused

/-!
# Work of an archive on a disk that refuses

What reading, and making and removing a database, come to on a disk with refusals of its own. Work
that succeeds does what it does on the calm disk. Work that fails leaves the tree as it was, but for
a database that lost its files and not its directory.
-/

namespace Tabular

/-- Does the failure say that something could not be written? Any call to the operating system that
failed without more words may have been one to write. -/
def Failure.OfWriting : Failure → Prop
  | .system _ => True
  | .rejected (.storage (.createDirectory _ _)) => True
  | .rejected (.storage (.removeDirectory _ _)) => True
  | .rejected (.storage (.writeFile _ _)) => True
  | .rejected (.storage (.appendFile _ _)) => True
  | .rejected (.storage (.removeFile _ _)) => True
  | _ => False

namespace Archive

open Tabular.Action

/-- The archive on the calm disk. -/
def calmed (a : Archive) : Archive := { a with disk := a.disk.calmed }

/-- An archive on an honest disk. -/
abbrev Honest (a : Archive) : Prop := a.disk.Honest

/-- The archive with another tree, whatever the counts and the refusals are. -/
structure Turns (a : Archive) (disk : Disk) (a' : Archive) : Prop where
  disk : a'.disk.calmed = disk
  suffix : a'.suffix = a.suffix
  safe : a'.safe = a.safe
  stamp : a'.stamp = a.stamp

/-- The archive as it was, but for the counts and the refusals. -/
abbrev Same (a a' : Archive) : Prop := a.Turns a.disk.calmed a'

theorem Same.refl (a : Archive) : a.Same a := ⟨rfl, rfl, rfl, rfl⟩

theorem Same.trans_turns {a a' a'' : Archive} {disk : Disk} (h : a.Same a')
    (h' : a'.Turns disk a'') : a.Turns disk a'' :=
  ⟨h'.disk, h'.suffix.trans h.suffix, h'.safe.trans h.safe, h'.stamp.trans h.stamp⟩

theorem Same.trans {a a' a'' : Archive} (h : a.Same a') (h' : a'.Same a'') : a.Same a'' :=
  h.trans_turns (h.disk ▸ h')

theorem turns_withDisk (a : Archive) {d disk : Disk} (h : d.calmed = disk) :
    a.Turns disk { a with disk := d } := ⟨h, rfl, rfl, rfl⟩

/-! ## Calls -/

section Calls

variable {α : Type} {c : Disk.Call α} {a a' : Archive}

theorem onDisk_run (c : Disk.Call α) (a : Archive) : (onDisk c).run a =
    ((c.run a.disk).1.mapError Failure.system, { a with disk := (c.run a.disk).2 }) := rfl

theorem stored_run (fault : SystemFault → StorageFault) (c : Disk.Call α) (a : Archive) :
    (stored fault c).run a =
      ((c.run a.disk).1.mapError (storageFailure fault), { a with disk := (c.run a.disk).2 }) := rfl

theorem onDisk_eq_error {f : Failure} (h : (onDisk c).run a = (.error f, a')) :
    ∃ e d, c.run a.disk = (.error e, d) ∧ f = .system e ∧ a' = { a with disk := d } := by
  rw [onDisk_run] at h
  cases hr : c.run a.disk with
  | mk r d =>
    rw [hr] at h
    cases r with
    | ok b => cases h
    | error e => cases h; exact ⟨e, d, rfl, rfl, rfl⟩

theorem onDisk_eq_ok {b : α} (h : (onDisk c).run a = (.ok b, a')) :
    ∃ d, c.run a.disk = (.ok b, d) ∧ a' = { a with disk := d } := by
  rw [onDisk_run] at h
  cases hr : c.run a.disk with
  | mk r d =>
    rw [hr] at h
    cases r with
    | ok b => cases h; exact ⟨d, rfl, rfl⟩
    | error e => cases h

theorem stored_eq_error {fault : SystemFault → StorageFault} {f : Failure}
    (h : (stored fault c).run a = (.error f, a')) :
    ∃ e d, c.run a.disk = (.error e, d) ∧ f = storageFailure fault e ∧
      a' = { a with disk := d } := by
  rw [stored_run] at h
  cases hr : c.run a.disk with
  | mk r d =>
    rw [hr] at h
    cases r with
    | ok b => cases h
    | error e => cases h; exact ⟨e, d, rfl, rfl, rfl⟩

theorem ofWriting_storageFailure (fault : SystemFault → StorageFault)
    (h : ∀ e, Failure.OfWriting (.rejected (.storage (fault e)))) (e : SystemFault) :
    (storageFailure fault e).OfWriting := by
  cases e with
  | refused e p q => exact h _
  | nullCharacter => trivial

theorem undeterred_onDisk {good : Disk → Prop} (hc : Undeterred good Disk.calmed c) :
    Undeterred (fun a => good a.disk) calmed (onDisk c) :=
  undeterred_within (undeterred_mapFailure _ hc) (fun _ h => h) (fun _ _ h => h) (fun _ => rfl)
    fun _ _ => rfl

theorem undeterred_stored {good : Disk → Prop} (fault : SystemFault → StorageFault)
    (hc : Undeterred good Disk.calmed c) :
    Undeterred (fun a => good a.disk) calmed (stored fault c) :=
  undeterred_within (undeterred_mapFailure _ hc) (fun _ h => h) (fun _ _ h => h) (fun _ => rfl)
    fun _ _ => rfl

theorem keeps_onDisk (hc : Keeps Disk.Same c) : Keeps Same (onDisk c) :=
  fun a => a.turns_withDisk (hc a.disk)

theorem keeps_stored (fault : SystemFault → StorageFault) (hc : Keeps Disk.Same c) :
    Keeps Same (stored fault c) := fun a => a.turns_withDisk (hc a.disk)

theorem undeterred_count {g : Archive → Archive} (hg : ∀ a, (g a).disk = a.disk)
    (hc : ∀ a, g a.calmed = (g a).calmed) :
    Undeterred Honest calmed (change g : Work Unit) := by
  refine undeterred_change (fun a ha => ?_) hc
  rw [Honest, hg]
  exact ha

end Calls

/-! ## Reading -/

theorem undeterred_hasDatabase (x : Text) : Undeterred Honest calmed (hasDatabase x) :=
  undeterred_onDisk (Disk.undeterred_isDirectory _)

theorem keeps_hasDatabase (x : Text) : Keeps Same (hasDatabase x) :=
  keeps_onDisk (Disk.keeps_isDirectory _)

theorem undeterred_tables (x : Text) : Undeterred Honest calmed (tables x) := by
  refine undeterred_bind (undeterred_hasDatabase x) fun kept => ?_
  split
  · refine undeterred_bind (undeterred_onDisk Disk.undeterred_call) fun members => ?_
    exact undeterred_look (fun suffix => undeterred_pure _) fun _ => rfl
  · exact undeterred_fail _

theorem keeps_tables (x : Text) : Keeps Same (tables x) := by
  refine keeps_bind Same.trans (keeps_hasDatabase x) fun kept => ?_
  split
  · refine keeps_bind Same.trans (keeps_onDisk (Disk.keeps_list _)) fun members => ?_
    exact keeps_bind Same.trans (keeps_look Same.refl _) fun suffix => keeps_pure Same.refl _
  · exact keeps_fail Same.refl _

theorem undeterred_load (x t : Text) : Undeterred Honest calmed (load x t) := by
  refine undeterred_look (fun p => ?_) fun _ => rfl
  refine undeterred_look (fun path => ?_) fun _ => rfl
  refine undeterred_bind (undeterred_stored _ Disk.undeterred_call) fun bytes => ?_
  split
  · exact undeterred_fail _
  · refine undeterred_bind (undeterred_give _) fun u => ?_
    exact undeterred_bind (undeterred_count (fun _ => rfl) fun _ => rfl) fun _ => undeterred_pure u

theorem keeps_load (x t : Text) : Keeps Same (load x t) := by
  refine keeps_bind Same.trans (keeps_look Same.refl _) fun p => ?_
  refine keeps_bind Same.trans (keeps_look Same.refl _) fun path => ?_
  refine keeps_bind Same.trans (keeps_stored _ (Disk.keeps_read p)) fun bytes => ?_
  split
  · exact keeps_fail Same.refl _
  · refine keeps_bind Same.trans (keeps_give Same.refl _) fun u => ?_
    exact keeps_bind Same.trans (fun _ => ⟨rfl, rfl, rfl, rfl⟩) fun _ => keeps_pure Same.refl u

/-! ## Databases -/

variable {a a' : Archive} {x : Text}

theorem undeterred_createDatabase (hx : Disk.IsName x) :
    Undeterred (fun a => a.disk.Rooted) calmed (createDatabase x) := by
  have hthere := Disk.undeterred_rooted (Disk.undeterred_isThere [x]) (Disk.keeps_isThere [x])
  rw [createDatabase, databasePath_eq hx]
  refine undeterred_bind (undeterred_onDisk hthere) fun there => ?_
  split
  · exact undeterred_fail _
  · exact undeterred_look (fun path => undeterred_stored _ (Disk.undeterred_makeDirectories hx))
      fun _ => rfl

theorem createDatabase_eq_error (ha : a.Honest)
    (hroot : a.disk.entries.get? [] = some .directory) (hx : Disk.IsName x) {f : Failure}
    (h : (createDatabase x).run a = (.error f, a')) : a.Same a' := by
  rw [createDatabase, databasePath_eq hx] at h
  have hkeeps := keeps_onDisk (Disk.keeps_isThere [x])
  obtain h | ⟨there, b, hb, h⟩ := run_bind_eq_error h
  · exact hkeeps.of_run h
  · have hsame := hkeeps.of_run hb
    cases there with
    | true => cases h; exact hsame
    | false =>
      have h : (stored _ (Disk.makeDirectories [x])).run b = (.error f, a') := h
      obtain ⟨e, d, hd, -, rfl⟩ := stored_eq_error h
      have hr : b.disk.entries.get? [] = some .directory := by
        rw [Disk.Same.entries hsame.disk]
        exact hroot
      have hb' := (undeterred_onDisk (Disk.undeterred_isThere [x])).good_of_run ha hb
      exact hsame.trans_turns
        (b.turns_withDisk (Eq.trans (Disk.makeDirectories_eq_error hb' hr hx hd) hsame.disk))

theorem undeterred_dropDatabase (x : Text) : Undeterred Honest calmed (dropDatabase x) := by
  refine undeterred_bind (undeterred_hasDatabase x) fun kept => ?_
  split
  · exact undeterred_look (fun path => undeterred_stored _ (Disk.undeterred_removeTree _))
      fun _ => rfl
  · exact undeterred_fail _

/-- A database that could not be removed is as it was or has lost its files. -/
theorem dropDatabase_eq_error (ha : a.Honest) (hd : a.calmed.disk.Calm) (hx : Disk.IsName x)
    (hfit : Disk.fits x) {f : Failure} (h : (dropDatabase x).run a = (.error f, a')) :
    a.Same a' ∨ a.Turns (a.disk.calmed.emptied [x]) a' ∧ a.isKept x ∧
      ∃ p e, f = .rejected (.storage (.removeDirectory p e)) := by
  have hkeeps := keeps_hasDatabase x
  obtain h | ⟨kept, b, hb, h⟩ := run_bind_eq_error h
  · exact .inl (hkeeps.of_run h)
  · have hsame := hkeeps.of_run hb
    have hk := (undeterred_hasDatabase x).ok_run ha hb
    rw [hasDatabase_run hd hx hfit] at hk
    cases kept with
    | false => cases h; exact .inl hsame
    | true =>
      have hdir : a.isKept x := Except.ok.inj (Prod.mk.inj hk).1
      rw [if_pos rfl, run_bind_ok (run_look _ _), databasePath_eq hx] at h
      obtain ⟨e, d, hrun, rfl, rfl⟩ := stored_eq_error h
      have hcb : b.disk.calmed.Calm := by rw [hsame.disk]; exact hd
      have hbe : b.disk.entries.get? [x] = some .directory := by
        rw [Disk.Same.entries hsame.disk]
        exact beq_iff_eq.1 hdir
      obtain hs | ⟨hs, e, p, q, rfl⟩ := Disk.removeTree_eq_error ((undeterred_hasDatabase x).good_of_run ha hb)
        (hcb.reaches_one hx hfit) hbe hrun
      · exact .inl (hsame.trans_turns (b.turns_withDisk (Eq.trans hs hsame.disk)))
      · rw [hsame.disk] at hs
        exact .inr ⟨hsame.trans_turns (b.turns_withDisk hs), hdir, _, _, rfl⟩

end Archive

end Tabular
