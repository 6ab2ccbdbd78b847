import Tabular.Proofs.Catalog.Sane
import Tabular.Proofs.Catalog.Sound
import Tabular.Proofs.Table.Failures

/-!
# Work with a resident database

As long as a database is resident, work with its tables keeps it so, and never goes wrong for want
of the database: it is not looked for on the disk.
-/

namespace Tabular

open Tabular.Action

/-- The failure is not that there is no such database. -/
def Failure.KnowsDatabase (f : Failure) : Prop := ∀ x, f ≠ .rejected (.unknownDatabase x)

theorem Failure.OfTable.knowsDatabase {f : Failure} (h : f.OfTable) : f.KnowsDatabase := by
  rintro x rfl
  exact h

namespace Archive

/-- Work of an archive that never looks for a database in vain. -/
abbrev Knows {α : Type} (w : Work α) : Prop :=
  Ensures (fun _ => True) (fun _ => True) Failure.KnowsDatabase w

variable {α : Type}

theorem knows_onDisk (c : Disk.Call α) : Knows (onDisk c) := by
  refine fun a _ => ⟨trivial, ?_⟩
  rw [onDisk, run_within, run_mapFailure]
  cases (c.run a.disk).1 with
  | ok b => trivial
  | error cause => rintro _ ⟨⟩

theorem knows_stored (fault : SystemFault → StorageFault) (c : Disk.Call α) :
    Knows (stored fault c) := by
  refine fun a _ => ⟨trivial, ?_⟩
  rw [stored, run_within, run_mapFailure]
  cases (c.run a.disk).1 with
  | ok b => trivial
  | error cause => cases cause <;> rintro _ ⟨⟩

theorem knows_countWrite (mode : InsertMode) : Knows (countWrite mode) :=
  ensures_change fun _ h => h

theorem knows_save (x : Text) (t : Table) : Knows (save x t) := by
  have hattempt (a : Archive) (c : Disk.Call Unit) : Ensures (fun _ => True) (fun _ => True)
      Failure.KnowsDatabase
      (Action.attempt (Action.within disk (fun d a => { a with disk := d }) c) :
        Work (Except SystemFault Unit)) := fun _ _ => ⟨trivial, trivial⟩
  refine ensures_bind (ensures_seen _) fun a _ => ensures_bind (knows_onDisk _) fun _ _ =>
    ensures_bind (hattempt a _) fun result _ => ?_
  split
  · exact knows_countWrite _
  · exact ensures_fail nofun
  · exact ensures_bind (knows_onDisk _) fun _ _ => ensures_fail nofun

theorem knows_appendRow (x : Text) (t : Table) (row : Row) : Knows (appendRow x t row) := by
  refine ensures_bind (ensures_seen _) fun a _ => ensures_bind (knows_onDisk _) fun isFile _ => ?_
  split
  · exact ensures_bind (knows_stored _ _) fun _ _ => knows_countWrite _
  · exact ensures_fail nofun

theorem knows_deleteTable (x t : Text) : Knows (deleteTable x t) :=
  ensures_bind (ensures_seen _) fun _ _ => ensures_bind (ensures_seen _) fun _ _ => knows_stored _ _

end Archive

namespace Catalog

/-- Work of a catalog that keeps a database resident and never looks for it in vain. -/
abbrev Knows (x : Text) {α : Type} (w : Work α) : Prop :=
  Ensures (fun c : Catalog => c.resident.has x) (fun _ => True) Failure.KnowsDatabase w

variable {α : Type} {x : Text}

theorem knows_onArchive {w : Archive.Work α} (hw : Archive.Knows w) : Knows x (onArchive w) :=
  ensures_within hw (fun _ _ => trivial) fun _ _ _ hc => hc

theorem knows_check {y : Except Rejection α} (h : ∀ n, y ≠ .error (.unknownDatabase n)) :
    Knows x (check y) := by
  refine ensures_give (Except.gives_mapError.2 ?_)
  cases y with
  | ok a => trivial
  | error cause =>
    rintro n ⟨⟩
    exact h n rfl

theorem knows_database : Knows x (database x) := by
  intro c hc
  obtain ⟨d, hd⟩ := Option.isSome_iff_exists.1 hc
  rw [database_resident hd]
  exact ⟨hc, trivial⟩

theorem get_ne_unknownDatabase (d : Database) (t : Text) (n : Text) :
    d.get t ≠ .error (.unknownDatabase n) := by
  unfold Database.get
  split <;> exact nofun

theorem knows_table (t : Text) : Knows x (table x t) :=
  ensures_bind knows_database fun d _ => knows_check (get_ne_unknownDatabase d t)

theorem knows_replace (t : Table) : Knows x (replace x t) := by
  refine ensures_change fun c hc => ?_
  split
  · exact OrderedMap.has_put_of_has _ _ hc
  · exact hc

theorem knows_createTable (t : Text) (columns : List Text) : Knows x (createTable x t columns) := by
  have hcreate (n : Text) : Table.create t columns ≠ .error (.unknownDatabase n) := fun h =>
    (Table.create_confined columns t).of_error h
  refine ensures_bind knows_database fun d _ => ?_
  split
  · exact ensures_fail fun _ h => by cases h
  · exact ensures_bind (knows_check hcreate) fun new _ =>
      ensures_bind (knows_onArchive (Archive.knows_save x new)) fun _ _ =>
        ensures_bind (knows_replace new) fun _ _ => ensures_pure trivial

theorem knows_dropTable (t : Text) : Knows x (dropTable x t) := by
  refine ensures_bind knows_database fun d _ =>
    ensures_bind (knows_check (get_ne_unknownDatabase d t)) fun _ _ =>
      ensures_bind (knows_onArchive (Archive.knows_deleteTable x t)) fun _ _ =>
        ensures_bind (knows_check fun n h => ?_) fun r _ =>
          ensures_change fun c hc => OrderedMap.has_put_of_has _ _ hc
  rw [Database.remove] at h
  cases hget : d.get t with
  | ok u => rw [hget] at h; cases h
  | error cause =>
    rw [hget] at h
    cases h
    exact get_ne_unknownDatabase d t n hget

theorem knows_carry (edit : Edit) : Knows x (edit.carry x) := by
  cases edit with
  | none => exact ensures_pure trivial
  | whole t =>
    exact ensures_bind (knows_replace t) fun _ _ => knows_onArchive (Archive.knows_save x t)
  | row t row =>
    refine ensures_bind (knows_replace t) fun _ _ => ensures_bind (ensures_seen _) fun mode _ => ?_
    cases mode with
    | whole => exact knows_onArchive (Archive.knows_save x t)
    | append => exact knows_onArchive (Archive.knows_appendRow x t row)

end Catalog

end Tabular
