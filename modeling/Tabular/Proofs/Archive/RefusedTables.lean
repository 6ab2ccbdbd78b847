import Tabular.Proofs.Archive.Refused
import Tabular.Proofs.Archive.Tables

/-!
# Table files on a disk that refuses

What writing, appending and removing come to on a disk with refusals of its own. Writing that fails
may leave a temporary file behind, and appending that fails may have appended the row.
-/

namespace Tabular.Archive

open Tabular.Action

variable {a a' : Archive} {x : Text}

theorem undeterred_write (safe : Bool) (p : Path) (content : Bytes) :
    Undeterred Disk.Honest Disk.calmed (write safe p content) := by
  refine undeterred_bind Disk.undeterred_call fun _ => ?_
  split
  · exact Disk.undeterred_call
  · exact undeterred_pure ()

/-- Bytes that could not be written safely are not there, or they are there but perhaps not safe. -/
theorem write_eq_error {d d' : Disk} (hd : d.Honest) {safe : Bool} {p : Path} {content : Bytes}
    {f : SystemFault} (h : (write safe p content).run d = (.error f, d')) :
    d.Same d' ∨ (Disk.append p content).run d.calmed = (.ok (), d'.calmed) := by
  obtain h | ⟨_, u, ha, h⟩ := run_bind_eq_error h
  · exact .inl (Disk.call_eq_error hd h).1
  · have hu := Disk.undeterred_call.ok_run hd ha
    cases safe with
    | false => cases h
    | true =>
      have h : (Disk.sync p).run u = (.error f, d') := h
      have hs := (Disk.call_eq_error (Disk.undeterred_call.good_of_run hd ha) h).1
      rw [Disk.Same] at hs
      exact .inr (by rw [hs]; exact hu)

theorem undeterred_save (x : Text) (t : Table) : Undeterred Honest calmed (save x t) := by
  refine undeterred_look (fun b => ?_) fun _ => rfl
  refine undeterred_bind (undeterred_onDisk Disk.undeterred_call) fun _ => ?_
  refine undeterred_attempt ?_ ?_ ?_
  · exact undeterred_within (undeterred_bind (undeterred_write _ _ _) fun _ => Disk.undeterred_call)
      (fun _ h => h) (fun _ _ h => h) (fun _ => rfl) fun _ _ => rfl
  · intro r
    split
    · exact undeterred_count (fun _ => rfl) fun _ => rfl
    · exact undeterred_fail _
    · exact undeterred_bind (undeterred_onDisk (Disk.undeterred_unlinkIfThere _)) fun _ =>
        undeterred_fail _
  · intro e s t b h
    split at h
    · next he => cases he
    · cases h
    · obtain ⟨_, _, -, h⟩ := run_bind_eq_ok h
      cases h

theorem undeterred_appendRow (x : Text) (t : Table) (row : Row) :
    Undeterred Honest calmed (appendRow x t row) := by
  refine undeterred_look (fun b => ?_) fun _ => rfl
  refine undeterred_bind (undeterred_onDisk (Disk.undeterred_isFile _)) fun there => ?_
  split
  · exact undeterred_bind (undeterred_stored _ (undeterred_write _ _ _)) fun _ =>
      undeterred_count (fun _ => rfl) fun _ => rfl
  · exact undeterred_fail _

theorem undeterred_deleteTable (x t : Text) : Undeterred Honest calmed (deleteTable x t) := by
  refine undeterred_look (fun p => ?_) fun _ => rfl
  refine undeterred_look (fun path => ?_) fun _ => rfl
  exact undeterred_stored _ (Disk.undeterred_unlinkIfThere _)

/-- A table file that could not be removed is still there. -/
theorem deleteTable_eq_error (ha : a.Honest) {t : Text} {f : Failure}
    (h : (deleteTable x t).run a = (.error f, a')) : a.Same a' := by
  rw [deleteTable, run_bind_ok (run_look _ _), run_bind_ok (run_look _ _)] at h
  obtain ⟨e, d, hd, -, rfl⟩ := stored_eq_error h
  exact a.turns_withDisk (Disk.unlinkIfThere_eq_error ha hd)

section Save

variable {t : Table}

/-- The tree with a temporary file that stayed behind, where there was none. -/
def LeavesDraft (a : Archive) (x t : Text) (a' : Archive) : Prop :=
  Disk.fits (a.temporaryName t) ∧ a.disk.entries.get? [x, a.temporaryName t] = none ∧
    ∃ content, a.Turns (a.calmed.drafted x t content) a'

/-- What it takes to make the temporary file of a table, on an honest disk. -/
structure Draftable (a : Archive) (x t : Text) : Prop where
  plain : a.Plain
  honest : a.Honest
  calm : a.disk.calmed.Calm
  isName : Disk.IsName x ∧ Disk.IsName (a.fileName t)
  directory : Disk.fits x ∧ a.isKept x
  fits : Disk.fits (a.temporaryName t)
  free : a.disk.entries.get? [x, a.temporaryName t] = none

theorem Draftable.reaches (h : a.Draftable x t.name) (content : Bytes) :
    (a.calmed.drafted x t.name content).Reaches [x, a.temporaryName t.name] :=
  (draft_run (a := a.calmed) (t := t) (h.plain.congr rfl rfl) h.calm h.isName.1 h.isName.2
    h.directory h.fits h.free content).2.2

theorem drafted_get? (a : Archive) (x t : Text) (content : Bytes) :
    (a.drafted x t content).entries.get? [x, a.temporaryName t] = some (.file content) :=
  OrderedMap.get?_put_same ..

/-- A temporary file that could not take the place of the table's file may be written or not. -/
theorem Draftable.move_eq_error (h : a.Draftable x t.name) {d d' : Disk} (hh : d.Honest)
    (hd : d.calmed = a.calmed.drafted x t.name []) {p : Path} {content : Bytes} {e : SystemFault}
    (hrun : (do write a.safe [x, a.temporaryName t.name] content
                Disk.rename [x, a.temporaryName t.name] p : Disk.Call Unit).run d =
      (.error e, d')) : ∃ c, d'.calmed = a.calmed.drafted x t.name c := by
  have happend := (h.reaches []).append_run (a.calmed.drafted_get? x t.name []) content
  have hput : (a.calmed.drafted x t.name []).put [x, a.temporaryName t.name]
      (.file ([] ++ content)) = a.calmed.drafted x t.name content := Disk.put_put ..
  rw [hput] at happend
  obtain hw | ⟨_, u, hw, hr⟩ := run_bind_eq_error hrun
  · obtain hs | hs := write_eq_error hh hw
    · exact ⟨[], Eq.trans hs hd⟩
    · rw [hd, happend] at hs
      exact ⟨content, (Prod.mk.inj hs).2.symm⟩
  · have hwrite := (undeterred_write _ _ content).ok_run hh hw
    have hdraft := (draft_run (a := a.calmed) (t := t) (h.plain.congr rfl rfl) h.calm h.isName.1
      h.isName.2 h.directory h.fits h.free content).2.1
    rw [hd] at hwrite
    have hs := (Disk.call_eq_error ((undeterred_write _ _ content).good_of_run hh hw) hr).1
    exact ⟨content, Eq.trans hs (Prod.mk.inj (hwrite.symm.trans hdraft)).2⟩

/-- The temporary file may stay where it is to be removed. -/
theorem Draftable.unlink_eq (h : a.Draftable x t.name) {b : Archive} {content : Bytes}
    (hb : a.Turns (a.calmed.drafted x t.name content) b) (hh : b.Honest) {r : Except Failure Unit}
    (hrun : (onDisk (Disk.unlinkIfThere [x, a.temporaryName t.name])).run b = (r, a')) :
    match r with
    | .ok _ => a.Same a'
    | .error f => f.OfWriting ∧ a.LeavesDraft x t.name a' := by
  cases r with
  | ok u =>
    obtain ⟨d, hd, rfl⟩ := onDisk_eq_ok hrun
    have hd' := (Disk.undeterred_unlinkIfThere _).ok_run hh hd
    rw [hb.disk, (h.reaches content).unlinkIfThere_file (a.calmed.drafted_get? ..)] at hd'
    refine ⟨(Prod.mk.inj hd').2.symm.trans ?_, hb.suffix, hb.safe, hb.stamp⟩
    exact Disk.erase_put _ h.free
  | error f =>
    obtain ⟨e, d, hd, rfl, rfl⟩ := onDisk_eq_error hrun
    have hsame : d.calmed = b.disk.calmed := Disk.unlinkIfThere_eq_error hh hd
    exact ⟨trivial, h.fits, h.free, content, hsame.trans hb.disk, hb.suffix, hb.safe, hb.stamp⟩

/-- A table that could not be written in whole has the file that it had; its temporary file may have
stayed behind. -/
theorem save_eq_error (ha : a.Plain) (hh : a.Honest) (hd : a.disk.calmed.Calm) (hx : Disk.IsName x)
    (ht : Disk.IsName (a.fileName t.name)) {f : Failure}
    (h : (save x t).run a = (.error f, a')) :
    f.OfWriting ∧ (a.Same a' ∨ a.LeavesDraft x t.name a') := by
  rw [save, run_bind_ok (run_look _ _)] at h
  simp only [id, temporaryPath_eq ha hx ht, a.tablePath_eq hx ht] at h
  obtain h | ⟨_, b, hc, h⟩ := run_bind_eq_error h
  · obtain ⟨e, d, hrun, rfl, rfl⟩ := onDisk_eq_error h
    exact ⟨trivial, .inl (a.turns_withDisk (Disk.call_eq_error hh hrun).1)⟩
  · obtain ⟨d, hcreate, rfl⟩ := onDisk_eq_ok hc
    have hcalm := Disk.undeterred_call.ok_run hh hcreate
    have hdh := Disk.undeterred_call.good_of_run hh hcreate
    by_cases hdraft : (Disk.fits x ∧ a.isKept x) ∧ Disk.fits (a.temporaryName t.name) ∧
        a.disk.entries.get? [x, a.temporaryName t.name] = none
    · have hdr : a.Draftable x t.name :=
        ⟨ha, hh, hd, ⟨hx, ht⟩, hdraft.1, hdraft.2.1, hdraft.2.2⟩
      have hrun := (draft_run (a := a.calmed) (t := t) (ha.congr rfl rfl) hd hx ht hdr.directory
        hdr.fits hdr.free []).1
      have hd' : d.calmed = a.calmed.drafted x t.name [] :=
        (Prod.mk.inj (hcalm.symm.trans hrun)).2
      rw [run_bind_ok (run_attempt _ _), run_within] at h
      cases hm : (do write a.safe [x, a.temporaryName t.name] (Utf8.encode t.encode)
                     Disk.rename [x, a.temporaryName t.name] [x, a.fileName t.name] :
          Disk.Call Unit).run d with
      | mk r u =>
        rw [hm] at h
        have hu := (undeterred_bind (undeterred_write _ _ _) fun _ =>
          Disk.undeterred_call).good_of_run hdh hm
        cases r with
        | ok _ => cases h
        | error e =>
          obtain ⟨content, hleft⟩ := hdr.move_eq_error hdh hd' hm
          have hturns := a.turns_withDisk hleft
          cases e with
          | nullCharacter =>
            cases h
            exact ⟨trivial, .inr ⟨hdr.fits, hdr.free, content, hturns⟩⟩
          | refused e p q =>
            obtain h | ⟨_, b, hun, h⟩ := run_bind_eq_error h
            · have := hdr.unlink_eq hturns hu h
              exact ⟨this.1, .inr this.2⟩
            · cases h
              exact ⟨trivial, .inl (hdr.unlink_eq hturns hu hun)⟩
    · obtain ⟨e, he⟩ := draft_error (a := a.calmed) (ha.congr rfl rfl) hd hx ht hdraft
      cases he.symm.trans hcalm

end Save

/-- A row that could not be appended is not in the file, or it is but perhaps not safe. If there is
no file, that is said. -/
theorem appendRow_eq_error {t : Table} {row : Row} (hh : a.Honest) (hd : a.disk.calmed.Calm)
    (hx : Disk.IsName x) (hdir : Disk.fits x ∧ a.isKept x) (ht : Disk.IsName (a.fileName t.name))
    (hfit : Disk.fits (a.fileName t.name)) {f : Failure}
    (h : (appendRow x t row).run a = (.error f, a')) :
    (f.OfWriting ∧ (a.Same a' ∨ ∃ content,
      a.disk.entries.get? [x, a.fileName t.name] = some (.file content) ∧ a.Turns
        (a.calmed.putFile x t.name (content ++ Utf8.encode (Table.encodeRow row))).disk a')) ∨
    ((∃ p, f = .rejected (.storage (.appendMissing p))) ∧ a.Same a' ∧ ∀ content,
      a.disk.entries.get? [x, a.fileName t.name] ≠ some (.file content)) := by
  have hr := hd.reaches_two hx hdir.1 (beq_iff_eq.1 hdir.2) ht hfit
  rw [appendRow, run_bind_ok (run_look _ _)] at h
  simp only [id, a.tablePath_eq hx ht] at h
  have hkeeps := keeps_onDisk (Disk.keeps_isFile [x, a.fileName t.name])
  obtain h | ⟨there, b, hb, h⟩ := run_bind_eq_error h
  · obtain ⟨e, d, -, rfl, rfl⟩ := onDisk_eq_error h
    exact .inl ⟨trivial, .inl (hkeeps.of_run h)⟩
  · have hsame := hkeeps.of_run hb
    obtain ⟨d, hfile, rfl⟩ := onDisk_eq_ok hb
    have hcalm := (Disk.undeterred_isFile _).ok_run hh hfile
    have hdh := (Disk.undeterred_isFile _).good_of_run hh hfile
    have hd' : d.calmed = a.disk.calmed := hsame.disk
    rw [Disk.isFile, run_bind_ok hr.entry_run] at hcalm
    cases there with
    | false =>
      cases h
      refine .inr ⟨⟨_, rfl⟩, hsame, fun content hg => ?_⟩
      rw [Disk.calmed_entries, hg] at hcalm
      cases hcalm
    | true =>
      obtain ⟨content, hg⟩ : ∃ content,
          a.disk.entries.get? [x, a.fileName t.name] = some (.file content) := by
        rw [Disk.calmed_entries] at hcalm
        cases hg : a.disk.entries.get? [x, a.fileName t.name] with
        | none => rw [hg] at hcalm; cases hcalm
        | some e =>
          cases e with
          | directory => rw [hg] at hcalm; cases hcalm
          | file content => exact ⟨content, rfl⟩
      obtain h | ⟨_, b, -, h⟩ := run_bind_eq_error h
      · obtain ⟨e, u, hw, rfl, rfl⟩ := stored_eq_error h
        refine .inl ⟨ofWriting_storageFailure (.appendFile _) (fun _ => trivial) e, ?_⟩
        obtain hs | hs := write_eq_error hdh hw
        · exact .inl (a.turns_withDisk (Eq.trans hs hd'))
        · rw [hd', hr.append_run hg] at hs
          exact .inr ⟨content, hg, a.turns_withDisk (Prod.mk.inj hs).2.symm⟩
      · cases h

end Tabular.Archive
