import Tabular.Proofs.Archive.OneFile
import Tabular.Proofs.Action.Refused
import Tabular.Settings

/-!
# Saves that are halted

The saving of a table, cut short. The temporary file is made, then the table is written to it piece by
piece, then the file takes the place of the table's own; a halt can come between any two of these. What
the disk holds then, and whether the temporary file that is left behind looks like that of a table.
-/

namespace Tabular

namespace Archive

/-- How far a save came, with the pieces that it wrote. -/
inductive Stage where
  | untouched
  | drafted (pieces : List Bytes)
  | moved (pieces : List Bytes)

namespace Stage

end Stage

/-- The temporary file of a table is made, and pieces are added to it one after the other. -/
def draft (a : Archive) (x : Text) (t : Table) (pieces : List Bytes) : Disk.Call Unit := do
  Disk.createFile (a.temporaryPath x t.name)
  let _ ← Action.forEach (Disk.append (a.temporaryPath x t.name)) pieces

/-- The calls of a save up to a stage. -/
def halted (a : Archive) (x : Text) (t : Table) : Stage → Disk.Call Unit
  | .untouched => pure ()
  | .drafted pieces => a.draft x t pieces
  | .moved pieces => do
    a.draft x t pieces
    Disk.rename (a.temporaryPath x t.name) (a.tablePath x t.name)

variable {a : Archive} {x : Text} {t : Table} {disk : Disk} {pieces : List Bytes}

/-- Pieces are added to the temporary file one after the other. -/
theorem appendAll_run {n : Text}
    (hr : ∀ content, (a.drafted x n content).Reaches [x, a.temporaryName n])
    (pieces : List Bytes) (before : Bytes) :
    ∃ us, (Action.forEach (Disk.append [x, a.temporaryName n]) pieces).run (a.drafted x n before) =
      (.ok us, a.drafted x n (before ++ pieces.flatten)) := by
  induction pieces generalizing before with
  | nil => exact ⟨[], by simp only [List.flatten_nil, List.append_nil]; rfl⟩
  | cons piece pieces ih =>
    have hfile : (a.drafted x n before).entries.get? [x, a.temporaryName n] =
        some (.file before) := by simp [drafted]
    have happend := (hr before).append_run hfile piece
    have hput : (a.drafted x n before).put [x, a.temporaryName n] (.file (before ++ piece)) =
        a.drafted x n (before ++ piece) := by simp [drafted]
    rw [hput] at happend
    obtain ⟨us, hus⟩ := ih (before ++ piece)
    refine ⟨() :: us, ?_⟩
    rw [Action.run_forEach_cons, Action.run_bind_ok happend, Action.run_bind_ok hus,
      List.flatten_cons, List.append_assoc]
    rfl

section Run

variable (ha : a.Plain) (hd : a.disk.Calm) (hx : Disk.IsName x)
  (ht : Disk.IsName (a.fileName t.name)) (hdir : Disk.fits x ∧ a.isKept x)

include ha hd hx ht hdir

/-- A temporary file in which pieces were written had a free place, and is all that is new. -/
theorem draft_eq_ok (h : (a.draft x t pieces).run a.disk = (.ok (), disk)) :
    Disk.fits (a.temporaryName t.name) ∧ a.disk.entries.get? [x, a.temporaryName t.name] = none ∧
      disk = a.drafted x t.name pieces.flatten := by
  simp only [draft, temporaryPath_eq ha hx ht] at h
  by_cases hfree : Disk.fits (a.temporaryName t.name) ∧
      a.disk.entries.get? [x, a.temporaryName t.name] = none
  · have hdraft := draft_run ha hd hx ht hdir hfree.1 hfree.2
    obtain ⟨us, hus⟩ := appendAll_run (fun content => (hdraft content).2.2) pieces []
    rw [Action.run_bind_ok (hdraft []).1, Action.run_bind_ok hus] at h
    exact ⟨hfree.1, hfree.2, (Prod.mk.inj h).2.symm⟩
  · obtain ⟨f, hf⟩ := draft_error ha hd hx ht fun h => hfree h.2
    rw [Action.run_bind_error hf] at h
    cases h

/-- A temporary file that took the place of the table's own could do so, and this is all that is new
then. -/
theorem moved_eq_ok (h : (a.halted x t (.moved pieces)).run a.disk = (.ok (), disk)) :
    a.Writable x t.name ∧ disk = (a.putFile x t.name pieces.flatten).disk := by
  rw [halted] at h
  obtain ⟨_, drafted, hdraft, hrename⟩ := Action.run_bind_eq_ok h
  obtain ⟨hfit, hfree, rfl⟩ := draft_eq_ok ha hd hx ht hdir hdraft
  rw [temporaryPath_eq ha hx ht, a.tablePath_eq hx ht] at hrename
  have hreach := (draft_run ha hd hx ht hdir hfit hfree pieces.flatten).2.2
  have hfile : (a.drafted x t.name pieces.flatten).entries.get? [x, a.temporaryName t.name] =
      some (.file pieces.flatten) := by simp [Archive.drafted]
  by_cases hplace : Disk.fits (a.fileName t.name) ∧
      a.disk.entries.get? [x, a.fileName t.name] ≠ some .directory
  · have hw : a.Writable x t.name := ⟨hdir, hfit, hfree, hplace.1, hplace.2⟩
    rw [move_run ha hd hx ht hw] at hrename
    exact ⟨hw, (Prod.mk.inj hrename).2.symm⟩
  · obtain ⟨f, hf⟩ := hreach.rename_error (Disk.hasNull_eq_false (by simp [hx, ht])) hfile
      (rename_blocked hd hx ht hdir hfree hplace _)
    cases hf.symm.trans hrename

/-- A save that is not halted comes to the same as its last stage, but for the counts. -/
theorem save_run_of_moved (hpieces : pieces.flatten = Utf8.encode t.encode)
    (h : (a.halted x t (.moved pieces)).run a.disk = (.ok (), disk)) :
    (save x t).run a = (.ok (), { a with disk := disk, writes := a.writes.bump .whole }) := by
  obtain ⟨hw, rfl⟩ := moved_eq_ok ha hd hx ht hdir h
  rw [save_run ha hd hx ht hw, hpieces]
  rfl

end Run

/-! ## What is left behind -/

end Archive

end Tabular
