import Tabular.Proofs.Archive.Databases
import Tabular.Proofs.Catalog.Sane

/-!
# The number of resident databases

Whenever a catalog makes a database resident or lets one go, it reports how many there are. Work
with tables only puts a changed database into the place of the old one. So the number last reported
is the number that there are, whatever comes of the work.
-/

namespace Tabular.Catalog

open Tabular.Action

/-- The number of resident databases is the one last reported. -/
def Gauged (c : Catalog) : Prop := c.gauge = c.resident.size

/-- The number reported stays right. -/
def StaysGauged (c c' : Catalog) : Prop := c.Gauged → c'.Gauged

namespace StaysGauged

variable {c c' c'' : Catalog}

theorem refl (c : Catalog) : StaysGauged c c := id

theorem trans (h : StaysGauged c c') (h' : StaysGauged c' c'') : StaysGauged c c'' :=
  fun hc => h' (h hc)

end StaysGauged

variable {α : Type} {c c' : Catalog} {x : Text} {d : Database}

/-- A database in the place of another one. -/
theorem Gauged.put (hc : c.Gauged) (hx : c.resident.has x) (d : Database) :
    Gauged { c with resident := c.resident.put x d } :=
  Eq.trans hc (OrderedMap.size_put_of_has d hx).symm

/-! ## Databases -/

theorem gauged_onArchive (w : Archive.Work α) : Keeps StaysGauged (onArchive w) := fun _ hc => hc

theorem gauged_check (y : Except Rejection α) : Keeps StaysGauged (check y) :=
  keeps_give StaysGauged.refl _

theorem gauged_refuse (cause : Rejection) : Keeps StaysGauged (refuse cause : Work α) :=
  keeps_fail StaysGauged.refl _

theorem gauged_hold (d : Database) : Keeps StaysGauged (hold d) := fun _ _ => rfl

theorem gauged_evict (x : Text) : Keeps StaysGauged (evict x) := by
  intro c hc
  simp only [evict, run_change]
  split
  · rfl
  · exact hc

theorem gauged_load (x : Text) : Keeps StaysGauged (load x) :=
  keeps_bind StaysGauged.trans (gauged_onArchive _) fun _ =>
    keeps_bind StaysGauged.trans (gauged_onArchive _) fun _ =>
      keeps_bind StaysGauged.trans (gauged_check _) fun d =>
        keeps_bind StaysGauged.trans (gauged_hold d) fun _ => keeps_pure StaysGauged.refl d

theorem gauged_use (x : Text) : Keeps StaysGauged (use x) := by
  refine keeps_bind StaysGauged.trans (gauged_onArchive _) fun isThere => ?_
  split
  · refine keeps_bind StaysGauged.trans (keeps_look StaysGauged.refl _) fun r => ?_
    cases r with
    | some d => exact keeps_pure StaysGauged.refl d
    | none => exact gauged_load x
  · exact keeps_bind StaysGauged.trans (gauged_evict x) fun _ => gauged_refuse _

theorem gauged_database (x : Text) : Keeps StaysGauged (database x) := by
  refine keeps_bind StaysGauged.trans (keeps_look StaysGauged.refl _) fun r => ?_
  cases r with
  | some d => exact keeps_pure StaysGauged.refl d
  | none => exact gauged_use x

theorem gauged_createDatabase (x : Text) : Keeps StaysGauged (createDatabase x) := by
  refine keeps_bind StaysGauged.trans (keeps_look StaysGauged.refl _) fun isHeld => ?_
  split
  · exact gauged_refuse _
  · refine keeps_bind StaysGauged.trans (gauged_onArchive _) fun isThere => ?_
    split
    · exact gauged_refuse _
    · exact keeps_bind StaysGauged.trans (gauged_onArchive _) fun _ =>
        keeps_bind StaysGauged.trans (gauged_hold _) fun _ => keeps_pure StaysGauged.refl _

theorem gauged_dropDatabase (x : Text) : Keeps StaysGauged (dropDatabase x) := by
  refine keeps_bind StaysGauged.trans (gauged_onArchive _) fun isThere => ?_
  split
  · exact keeps_bind StaysGauged.trans (gauged_onArchive _) fun _ => gauged_evict x
  · exact keeps_bind StaysGauged.trans (gauged_evict x) fun _ => gauged_refuse _

/-! ## Tables -/

theorem gauged_table (x t : Text) : Keeps StaysGauged (table x t) :=
  keeps_bind StaysGauged.trans (gauged_database x) fun _ => gauged_check _

theorem gauged_replace (x : Text) (t : Table) : Keeps StaysGauged (replace x t) := by
  intro c hc
  simp only [replace, run_change]
  split
  · next d hd => exact hc.put (by simp [OrderedMap.has, hd]) _
  · exact hc

theorem gauged_createTable (x t : Text) (columns : List Text) :
    Keeps StaysGauged (createTable x t columns) := by
  refine keeps_bind StaysGauged.trans (gauged_database x) fun d => ?_
  split
  · exact gauged_refuse _
  · exact keeps_bind StaysGauged.trans (gauged_check _) fun _ =>
      keeps_bind StaysGauged.trans (gauged_onArchive _) fun _ =>
        keeps_bind StaysGauged.trans (gauged_replace x _) fun _ => keeps_pure StaysGauged.refl _

theorem gauged_persist (x : Text) (t : Table) : Keeps StaysGauged (persist x t) :=
  gauged_onArchive _

theorem gauged_persistInsert (x : Text) (t : Table) (row : Row) :
    Keeps StaysGauged (persistInsert x t row) := by
  refine keeps_bind StaysGauged.trans (keeps_look StaysGauged.refl _) fun mode => ?_
  cases mode with
  | whole => exact gauged_onArchive _
  | append => exact gauged_onArchive _

/-- A database that has been referred to is resident. -/
theorem has_of_load (h : (load x).run c = (.ok d, c')) : c'.resident.has x := by
  obtain ⟨_, _, -, h⟩ := run_bind_eq_ok h
  obtain ⟨ts, _, -, h⟩ := run_bind_eq_ok h
  obtain ⟨e, c₁, he, h⟩ := run_bind_eq_ok h
  obtain ⟨_, _, hhold, h⟩ := run_bind_eq_ok h
  cases hhold
  cases h
  have hname : d.name = x := by
    cases ha : (Database.empty x).addAll ts with
    | error f => simp [check, ha, Except.mapError] at he
    | ok d' =>
      simp only [check, ha, Except.mapError, run_give, Prod.mk.injEq, Except.ok.injEq] at he
      rw [← he.1]
      exact Database.addAll_name ha
  simp [OrderedMap.has, hname]

theorem has_of_use (h : (use x).run c = (.ok d, c')) : c'.resident.has x := by
  obtain ⟨isThere, c₁, -, h⟩ := run_bind_eq_ok h
  split at h
  · rw [run_bind_ok (run_look _ _)] at h
    cases hr : c₁.resident.get? x with
    | some d' =>
      rw [hr] at h
      cases h
      simp [OrderedMap.has, hr]
    | none =>
      rw [hr] at h
      exact has_of_load h
  · obtain ⟨_, _, -, h⟩ := run_bind_eq_ok h
    cases h

theorem has_of_database (h : (database x).run c = (.ok d, c')) : c'.resident.has x := by
  rw [database, run_bind_ok (run_look _ _)] at h
  cases hr : c.resident.get? x with
  | some d' =>
    rw [hr] at h
    cases h
    simp [OrderedMap.has, hr]
  | none =>
    rw [hr] at h
    exact has_of_use h

/-- The number reported stays right if a certain database is resident, which it stays too. -/
def StaysGaugedWith (x : Text) (c c' : Catalog) : Prop :=
  c.Gauged ∧ c.resident.has x → c'.Gauged ∧ c'.resident.has x

/-- Removing a table once its database is there. -/
theorem gauged_dropIn (x t : Text) (d : Database) : Keeps (StaysGaugedWith x) (do
    let _ ← check (d.get t)
    onArchive (Archive.deleteTable x t)
    let (_, rest) ← check (d.remove t)
    change fun c => { c with resident := c.resident.put x rest } : Work Unit) := by
  have trans {c c' c'' : Catalog} (h : StaysGaugedWith x c c') (h' : StaysGaugedWith x c' c'') :
      StaysGaugedWith x c c'' := fun hc => h' (h hc)
  exact keeps_bind trans (keeps_give (fun _ => id) _) fun _ =>
    keeps_bind trans (fun _ hc => hc) fun _ =>
      keeps_bind trans (keeps_give (fun _ => id) _) fun r =>
        fun c hc => ⟨hc.1.put hc.2 r.2, OrderedMap.has_put_of_has _ _ hc.2⟩

theorem gauged_dropTable (x t : Text) : Keeps StaysGauged (dropTable x t) := by
  intro c hc
  cases hrun : (database x).run c with
  | mk r c₁ =>
    have hc₁ : c₁.Gauged := (gauged_database x).of_run hrun hc
    cases r with
    | error f =>
      rw [dropTable, run_bind_error hrun]
      exact hc₁
    | ok d =>
      rw [dropTable, run_bind_ok hrun]
      exact (gauged_dropIn x t d c₁ ⟨hc₁, has_of_database hrun⟩).1

end Tabular.Catalog
