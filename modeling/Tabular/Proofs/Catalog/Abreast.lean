import Tabular.Proofs.Archive.Abreast
import Tabular.Proofs.Catalog.Outcomes

/-!
# Work with catalogs that match in a database

Two catalogs match in a database if their archives do and they hold the same of the database, or
neither holds it. Work with the database comes to the same for both, whatever other databases they
hold.
-/

namespace Tabular

open Tabular.Action

variable {x suffix : Text}

/-! ## Databases -/

namespace Database

/-- Every table of the database is sound and has a file name. -/
def Fileable (suffix : Text) (d : Database) : Prop :=
  ∀ k t, d.tables.get? k = some t → t.Fileable suffix

variable {d e : Database} {t : Table}

theorem empty_fileable (x : Text) : (empty x).Fileable suffix := nofun

theorem Fileable.put (hd : d.Fileable suffix) (ht : t.Fileable suffix) (k : Text) :
    Fileable suffix { d with tables := d.tables.put k t } := by
  intro j u hu
  rw [OrderedMap.get?_put] at hu
  split at hu
  · cases hu
    exact ht
  · exact hd j u hu

theorem Fileable.erase (hd : d.Fileable suffix) (k : Text) :
    Fileable suffix { d with tables := d.tables.erase k } := by
  intro j u hu
  rw [OrderedMap.get?_erase] at hu
  split at hu
  · cases hu
  · exact hd j u hu

theorem Fileable.addAll (hd : d.Fileable suffix) {ts : List Table}
    (hts : ∀ t ∈ ts, t.Fileable suffix) (h : d.addAll ts = .ok e) : e.Fileable suffix := by
  induction ts generalizing d with
  | nil =>
    cases h
    exact hd
  | cons t ts ih =>
    obtain ⟨ht, hts⟩ := List.forall_mem_cons.1 hts
    obtain ⟨d', hadd, h⟩ := Except.bind_eq_ok_iff.1 h
    refine ih ?_ hts h
    unfold Database.add at hadd
    split at hadd
    · cases hadd
    · cases hadd
      exact hd.put ht _

theorem Fileable.of_get (hd : d.Fileable suffix) {name : Text} (h : d.get name = .ok t) :
    t.Fileable suffix := by
  unfold Database.get at h
  split at h
  · next u hu =>
    cases h
    exact hd _ t hu
  · cases h

theorem Fileable.of_remove (hd : d.Fileable suffix) {name : Text} (h : d.remove name = .ok (t, e)) :
    e.Fileable suffix := by
  obtain ⟨u, -, h⟩ := Except.bind_eq_ok_iff.1 h
  cases h
  exact hd.erase _

end Database

/-! ## Catalogs -/

namespace Catalog

/-- Two catalogs that match in the database `x` and whose file names end with `suffix`. -/
structure Matches (x suffix : Text) (c c' : Catalog) : Prop where
  archive : c.archive.Matches x suffix c'.archive
  mode : c'.mode = c.mode
  resident : c'.resident.get? x = c.resident.get? x
  held : ∀ d, c.resident.get? x = some d → d.Fileable suffix

/-- Work that keeps to the database: with catalogs that match in it the work comes to the same, with
the property, and leaves catalogs that match in it. -/
abbrev KeepsTo (x suffix : Text) {α : Type} (P : α → Prop) (w : Work α) : Prop :=
  Abreast (Matches x suffix) (Shared P) w w

variable {α : Type} {P : α → Prop} {c c' : Catalog} {d : Database} {t : Text}

theorem Matches.put (h : c.Matches x suffix c') (hd : d.Fileable suffix) (n n' : Nat) :
    Matches x suffix { c with resident := c.resident.put x d, gauge := n }
      { c' with resident := c'.resident.put x d, gauge := n' } where
  archive := h.archive
  mode := h.mode
  resident := by rw [OrderedMap.get?_put_same, OrderedMap.get?_put_same]
  held := by
    intro e he
    rw [OrderedMap.get?_put_same] at he
    cases he
    exact hd

theorem keepsTo_onArchive {w : Archive.Work α} (hw : Archive.KeepsTo x suffix P w) :
    KeepsTo x suffix P (onArchive w) :=
  abreast_within hw (fun _ _ hc => hc.archive) fun _ _ _ _ ha hc =>
    ⟨ha, hc.mode, hc.resident, hc.held⟩

theorem keepsTo_check {y : Except Rejection α} (h : ∀ a, y = .ok a → P a) :
    KeepsTo x suffix P (check y) :=
  abreast_give ((Except.matches_self fun a ha => ⟨rfl, h a ha⟩).mapError _)

theorem keepsTo_hold (hd : d.Fileable suffix) (hname : d.name = x) :
    KeepsTo x suffix (fun _ => True) (hold d) := by
  subst hname
  exact abreast_change fun _ _ hc => hc.put hd _ _

theorem keepsTo_evict : KeepsTo x suffix (fun _ => True) (evict x) := by
  refine abreast_change fun c c' hc => ?_
  have hhas : c'.resident.has x = c.resident.has x := by
    rw [OrderedMap.has, OrderedMap.has, hc.resident]
  rw [hhas]
  split
  · exact ⟨hc.archive, hc.mode,
      by rw [OrderedMap.get?_erase_same, OrderedMap.get?_erase_same],
      fun d hd => by rw [OrderedMap.get?_erase_same] at hd; cases hd⟩
  · exact hc

/-- What is held of the database. -/
theorem keepsTo_held : KeepsTo x suffix (fun r => ∀ d ∈ r, Database.Fileable suffix d)
    (look fun c => c.resident.get? x) :=
  abreast_look fun _ _ hc => ⟨hc.resident, hc.held⟩

/-! ## Whole databases -/

theorem keepsTo_loadDatabase (hx : Disk.IsName x) :
    KeepsTo x suffix (Database.Fileable suffix) (load x) := by
  refine abreast_then (keepsTo_onArchive (Archive.keepsTo_tables hx)) fun names hnames => ?_
  have hload : Archive.KeepsTo x suffix (fun ts => ∀ t ∈ ts, t.Fileable suffix)
      (forEach (Archive.load x) names) :=
    abreast_forEach fun t ht => Archive.keepsTo_load hx (hnames t ht)
  refine abreast_then (keepsTo_onArchive hload) fun ts hts => ?_
  have hadd : ∀ d, (Database.empty x).addAll ts = .ok d → d.Fileable suffix ∧ d.name = x :=
    fun d hd => ⟨(Database.empty_fileable x).addAll hts hd, Database.addAll_name hd⟩
  exact abreast_then (keepsTo_check hadd) fun d hd =>
    abreast_then (keepsTo_hold hd.1 hd.2) fun _ _ => abreast_pure ⟨rfl, hd.1⟩

theorem keepsTo_use (hx : Disk.IsName x) :
    KeepsTo x suffix (Database.Fileable suffix) (use x) := by
  refine abreast_then (keepsTo_onArchive (Archive.keepsTo_hasDatabase hx)) fun isThere _ => ?_
  split
  · refine abreast_then keepsTo_held fun r hr => ?_
    cases r with
    | some d => exact abreast_pure ⟨rfl, hr d rfl⟩
    | none => exact keepsTo_loadDatabase hx
  · exact abreast_then keepsTo_evict fun _ _ => abreast_fail _

theorem keepsTo_database (hx : Disk.IsName x) :
    KeepsTo x suffix (Database.Fileable suffix) (database x) := by
  refine abreast_then keepsTo_held fun r hr => ?_
  cases r with
  | some d => exact abreast_pure ⟨rfl, hr d rfl⟩
  | none => exact keepsTo_use hx

theorem keepsTo_createDatabase (hx : Disk.IsName x) :
    KeepsTo x suffix (fun _ => True) (createDatabase x) := by
  have hhas : KeepsTo x suffix (fun _ => True) (look fun c => c.resident.has x) :=
    abreast_look fun c c' hc => ⟨by rw [OrderedMap.has, OrderedMap.has, hc.resident], trivial⟩
  refine abreast_then hhas fun isHeld _ => ?_
  split
  · exact abreast_fail _
  · refine abreast_then (keepsTo_onArchive (Archive.keepsTo_hasDatabase hx)) fun isThere _ => ?_
    split
    · exact abreast_fail _
    · exact abreast_then (keepsTo_onArchive (Archive.keepsTo_createDatabase hx)) fun _ _ =>
        abreast_then (keepsTo_hold (Database.empty_fileable x) rfl) fun _ _ =>
          abreast_pure ⟨rfl, trivial⟩

theorem keepsTo_dropDatabase (hx : Disk.IsName x) :
    KeepsTo x suffix (fun _ => True) (dropDatabase x) := by
  refine abreast_then (keepsTo_onArchive (Archive.keepsTo_hasDatabase hx)) fun isThere _ => ?_
  split
  · exact abreast_then (keepsTo_onArchive (Archive.keepsTo_dropDatabase hx)) fun _ _ =>
      keepsTo_evict
  · exact abreast_then keepsTo_evict fun _ _ => abreast_fail _

/-! ## Tables -/

theorem keepsTo_table (hx : Disk.IsName x) (t : Text) :
    KeepsTo x suffix (Table.Fileable suffix) (table x t) :=
  abreast_then (keepsTo_database hx) fun _ hd => keepsTo_check fun _ h => hd.of_get h

theorem keepsTo_replace {t : Table} (ht : t.Fileable suffix) :
    KeepsTo x suffix (fun _ => True) (replace x t) := by
  refine abreast_change fun c c' hc => ?_
  rw [hc.resident]
  cases hr : c.resident.get? x with
  | none => exact hc
  | some d => exact hc.put ((hc.held d hr).put ht _) _ _

theorem keepsTo_createTable (hx : Disk.IsName x) (ht : Disk.IsName (t ++ suffix))
    (columns : List Text) : KeepsTo x suffix (fun _ => True) (createTable x t columns) := by
  refine abreast_then (keepsTo_database hx) fun d hd => ?_
  have hmade : ∀ new, Table.create t columns = .ok new → new.Fileable suffix := fun new h =>
    ⟨Table.create_sound h, by rw [(Table.create_eq_ok h).2]; exact ht⟩
  split
  · exact abreast_fail _
  · exact abreast_then (keepsTo_check hmade) fun new hnew =>
      abreast_then (keepsTo_onArchive (Archive.keepsTo_save hx hnew)) fun _ _ =>
        abreast_then (keepsTo_replace hnew) fun _ _ => abreast_pure ⟨rfl, trivial⟩

theorem keepsTo_dropTable (hx : Disk.IsName x) (ht : Disk.IsName (t ++ suffix)) :
    KeepsTo x suffix (fun _ => True) (dropTable x t) := by
  refine abreast_then (keepsTo_database hx) fun d hd => ?_
  have hrest : ∀ r, d.remove t = .ok r → r.2.Fileable suffix := fun r h => hd.of_remove h
  exact abreast_then (keepsTo_check fun _ _ => trivial) fun _ _ =>
    abreast_then (keepsTo_onArchive (Archive.keepsTo_deleteTable hx ht)) fun _ _ =>
      abreast_then (keepsTo_check hrest) fun r hr => abreast_change fun _ _ hc => hc.put hr _ _

/-- Carrying a change out. -/
theorem keepsTo_carry (hx : Disk.IsName x) {edit : Edit}
    (h : ∀ t ∈ edit.table?, t.Fileable suffix) :
    KeepsTo x suffix (fun _ => True) (edit.carry x) := by
  cases edit with
  | none => exact abreast_pure ⟨rfl, trivial⟩
  | whole t =>
    exact abreast_then (keepsTo_replace (h t rfl)) fun _ _ =>
      keepsTo_onArchive (Archive.keepsTo_save hx (h t rfl))
  | row t row =>
    have hmode : KeepsTo x suffix (fun _ => True) (look Catalog.mode) :=
      abreast_look fun _ _ hc => ⟨hc.mode, trivial⟩
    refine abreast_then (keepsTo_replace (h t rfl)) fun _ _ => abreast_then hmode fun mode _ => ?_
    cases mode with
    | whole => exact keepsTo_onArchive (Archive.keepsTo_save hx (h t rfl))
    | append => exact keepsTo_onArchive (Archive.keepsTo_appendRow hx (h t rfl) row)

end Catalog

end Tabular
