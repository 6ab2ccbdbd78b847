import Tabular.Proofs.Archive.Tables
import Tabular.Proofs.Disk.Abreast
import Tabular.Proofs.Table.Changes
import Tabular.Proofs.Text.Sorted

/-!
# Work on archives that match in a database

Two archives match in a database if their disks do and they name files alike. Work with the database
and its tables comes to the same on both.
-/

namespace Tabular

open Tabular.Action

/-- Texts in another order are sorted into the same list. -/
theorem Text.sorted_eq_of_perm {ts us : List Text} (h : ts.Perm us) :
    Text.sorted ts = Text.sorted us :=
  ((Text.sorted_perm ts).trans (h.trans (Text.sorted_perm us).symm)).eq_of_pairwise
    (fun _ _ _ _ => Text.precedes_antisymm) (Text.sorted_pairwise ts) (Text.sorted_pairwise us)

/-- A sound table whose file has a name. -/
def Table.Fileable (suffix : Text) (t : Table) : Prop := t.Sound ∧ Disk.IsName (t.name ++ suffix)

namespace Archive

/-- Two archives that match in the database `x` and whose file names end with `suffix`. -/
structure Matches (x suffix : Text) (a a' : Archive) : Prop where
  disk : a.disk.Matches x a'.disk
  suffix_left : a.suffix = suffix
  suffix_right : a'.suffix = suffix
  safe : a'.safe = a.safe
  stamp : a'.stamp = a.stamp
  plain : a.Plain

/-- Work that keeps to the database: on archives that match in it the work comes to the same, with
the property, and leaves archives that match in it. -/
abbrev KeepsTo (x suffix : Text) {α : Type} (P : α → Prop) (w : Work α) : Prop :=
  Abreast (Matches x suffix) (Shared P) w w

variable {α : Type} {x suffix t : Text} {a a' : Archive} {S : α → α → Prop}

/-- What is counted does not matter. -/
theorem Matches.counted (h : a.Matches x suffix a') (w w' : Tally InsertMode) (n n' : Nat) :
    Matches x suffix { a with writes := w, loads := n } { a' with writes := w', loads := n' } :=
  ⟨h.disk, h.suffix_left, h.suffix_right, h.safe, h.stamp, h.plain.congr rfl rfl⟩

/-! ## Names and paths -/

theorem Matches.fileName_eq (h : a.Matches x suffix a') (t : Text) :
    a.fileName t = t ++ suffix := by rw [fileName, h.suffix_left]

theorem Matches.tablePath_left (h : a.Matches x suffix a') (hx : Disk.IsName x)
    (ht : Disk.IsName (t ++ suffix)) : a.tablePath x t = [x, t ++ suffix] := by
  have hn := h.fileName_eq t
  rw [a.tablePath_eq hx (hn ▸ ht), hn]

theorem Matches.tablePath_right (h : a.Matches x suffix a') (hx : Disk.IsName x)
    (ht : Disk.IsName (t ++ suffix)) : a'.tablePath x t = [x, t ++ suffix] := by
  have hn : a'.fileName t = t ++ suffix := by rw [fileName, h.suffix_right]
  rw [a'.tablePath_eq hx (hn ▸ ht), hn]

theorem Matches.temporaryPath_eq (h : a.Matches x suffix a') (hx : Disk.IsName x)
    (ht : Disk.IsName (t ++ suffix)) :
    a'.temporaryPath x t = a.temporaryPath x t ∧ Disk.Within x (a.temporaryPath x t) := by
  have hn : Disk.IsName (a.fileName t) := h.fileName_eq t ▸ ht
  constructor
  · rw [temporaryPath, temporaryPath, h.tablePath_left hx ht, h.tablePath_right hx ht, h.stamp]
  · rw [Archive.temporaryPath_eq h.plain hx hn]
    exact Disk.within_two hx (isName_temporaryName h.plain hn)

theorem Matches.pathText_eq (h : a.Matches x suffix a') (p : Path) :
    a'.pathText p = a.pathText p := by rw [pathText, pathText, h.disk.root]

/-! ## Calls -/

theorem abreast_withinDisk {ε : Type} {c c' : Action Disk ε α}
    (h : Abreast (Disk.Matches x) S c c') :
    Abreast (Matches x suffix) S (c.within disk fun d a => { a with disk := d })
      (c'.within disk fun d a => { a with disk := d }) :=
  abreast_within h (fun _ _ ha => ha.disk) fun _ _ _ _ hd ha =>
    ⟨hd, ha.suffix_left, ha.suffix_right, ha.safe, ha.stamp, ha.plain.congr rfl rfl⟩

theorem abreast_onDisk {c c' : Disk.Call α} (h : Abreast (Disk.Matches x) S c c') :
    Abreast (Matches x suffix) S (onDisk c) (onDisk c') :=
  abreast_withinDisk (abreast_mapFailure h _)

theorem abreast_stored (fault : SystemFault → StorageFault) {c c' : Disk.Call α}
    (h : Abreast (Disk.Matches x) S c c') :
    Abreast (Matches x suffix) S (stored fault c) (stored fault c') :=
  abreast_withinDisk (abreast_mapFailure h _)

theorem keepsTo_pathText (p : Path) :
    KeepsTo x suffix (fun _ => True) (Action.look fun a => a.pathText p) :=
  abreast_look fun _ _ ha => ⟨ha.pathText_eq p, trivial⟩

/-- The path of a table is the same for both. -/
theorem keepsTo_tablePath (hx : Disk.IsName x) (ht : Disk.IsName (t ++ suffix)) :
    KeepsTo x suffix (Disk.Within x) (Action.look fun a => a.tablePath x t) := by
  refine abreast_look fun a a' ha => ?_
  rw [ha.tablePath_left hx ht, ha.tablePath_right hx ht]
  exact ⟨rfl, Disk.within_two hx ht⟩

/-! ## Databases -/

theorem within_databasePath (hx : Disk.IsName x) : Disk.Within x (databasePath x) := by
  rw [databasePath_eq hx]
  exact Disk.within_one hx

theorem keepsTo_hasDatabase (hx : Disk.IsName x) :
    KeepsTo x suffix (fun _ => True) (hasDatabase x) :=
  abreast_onDisk (Disk.keepsTo_isDirectory (within_databasePath hx))

theorem keepsTo_createDatabase (hx : Disk.IsName x) :
    KeepsTo x suffix (fun _ => True) (createDatabase x) := by
  have hp := within_databasePath hx
  refine abreast_then (abreast_onDisk (Disk.keepsTo_isThere hp)) fun isThere _ => ?_
  split
  · exact abreast_fail _
  · exact abreast_then (keepsTo_pathText _) fun path _ =>
      abreast_stored _ (Disk.keepsTo_makeDirectories hp)

theorem keepsTo_dropDatabase (hx : Disk.IsName x) :
    KeepsTo x suffix (fun _ => True) (dropDatabase x) := by
  refine abreast_then (keepsTo_hasDatabase hx) fun isThere _ => ?_
  split
  · exact abreast_then (keepsTo_pathText _) fun path _ =>
      abreast_stored _ (Disk.keepsTo_removeTree (within_databasePath hx))
  · exact abreast_fail _

/-- Tables are told by their files, and every file has a name. -/
theorem keepsTo_tables (hx : Disk.IsName x) :
    KeepsTo x suffix (fun ts => ∀ t ∈ ts, Disk.IsName (t ++ suffix)) (tables x) := by
  refine abreast_then (keepsTo_hasDatabase hx) fun isThere _ => ?_
  split
  · rw [databasePath_eq hx]
    refine abreast_bind (abreast_onDisk (Disk.abreast_list hx)) ?_
    rintro members members' ⟨hperm, hnames⟩
    have hsuffix : KeepsTo x suffix (fun s => s = suffix ∧ s ≠ []) (Action.look Archive.suffix) :=
      abreast_look fun a a' ha => ⟨ha.suffix_right.trans ha.suffix_left.symm, ha.suffix_left,
        ha.plain.suffix_ne⟩
    refine abreast_then hsuffix ?_
    rintro _ ⟨rfl, hs⟩
    refine abreast_pure ⟨Text.sorted_eq_of_perm (hperm.symm.filterMap _), fun t ht => ?_⟩
    obtain ⟨⟨name, e⟩, hm, hname⟩ := List.mem_filterMap.1 (Text.mem_sorted.1 ht)
    cases e with
    | directory => cases hname
    | file content => exact (tableOf?_eq_some_iff hs).1 hname ▸ hnames _ hm
  · exact abreast_fail _

/-! ## Tables -/

theorem keepsTo_load (hx : Disk.IsName x) (ht : Disk.IsName (t ++ suffix)) :
    KeepsTo x suffix (Table.Fileable suffix) (load x t) := by
  refine abreast_then (keepsTo_tablePath hx ht) fun p hp =>
    abreast_then (keepsTo_pathText p) fun path _ =>
      abreast_then (abreast_stored _ (Disk.keepsTo_read hp)) fun bytes _ => ?_
  split
  · exact abreast_fail _
  · next text _ =>
    have hdecode : (Table.decode t (unifyLines text) path).Matches
        (Shared (Table.Fileable suffix)) (Table.decode t (unifyLines text) path) :=
      Except.matches_self fun u hu => ⟨rfl, Table.decode_sound (not_mem_unifyLines text) hu,
        (Table.decode_eq_ok_iff.1 hu).2.1 ▸ ht⟩
    exact abreast_then (abreast_give hdecode) fun u hu =>
      abreast_then (abreast_change fun _ _ ha => ha.counted ..) fun _ _ => abreast_pure ⟨rfl, hu⟩

theorem keepsTo_countWrite (mode : InsertMode) :
    KeepsTo x suffix (fun _ => True) (countWrite mode) :=
  abreast_change fun _ _ ha => ha.counted ..

theorem keepsTo_write {p : Path} (hp : Disk.Within x p) (safe : Bool) (content : Bytes) :
    Disk.KeepsTo x (write safe p content) := by
  refine abreast_then (Disk.keepsTo_append hp content) fun _ _ => ?_
  split
  · exact Disk.keepsTo_sync p
  · exact abreast_pure ⟨rfl, trivial⟩

theorem keepsTo_save (hx : Disk.IsName x) {t : Table} (ht : t.Fileable suffix) :
    KeepsTo x suffix (fun _ => True) (save x t) := by
  refine abreast_bind (abreast_look (g := id) (S := Matches x suffix) fun _ _ h => h)
    fun a a' ha => ?_
  obtain ⟨htemporary, hdraft⟩ := ha.temporaryPath_eq hx ht.2
  have hfile := Disk.within_two hx ht.2
  simp only [htemporary, ha.tablePath_left hx ht.2, ha.tablePath_right hx ht.2, ha.pathText_eq,
    ha.safe]
  refine abreast_then (abreast_onDisk (Disk.keepsTo_createFile hdraft)) fun _ _ => ?_
  refine abreast_bind (abreast_attempt (abreast_withinDisk (abreast_then
    (keepsTo_write hdraft a.safe _) fun _ _ => Disk.keepsTo_rename hdraft hfile))) ?_
  intro result result' hresult
  cases hresult with
  | ok _ => exact keepsTo_countWrite _
  | error cause =>
    cases cause with
    | nullCharacter => exact abreast_fail _
    | refused e p q =>
      exact abreast_then (abreast_onDisk (Disk.keepsTo_unlinkIfThere hdraft)) fun _ _ =>
        abreast_fail _

theorem keepsTo_appendRow (hx : Disk.IsName x) {t : Table} (ht : t.Fileable suffix) (row : Row) :
    KeepsTo x suffix (fun _ => True) (appendRow x t row) := by
  refine abreast_bind (abreast_look (g := id) (S := Matches x suffix) fun _ _ h => h)
    fun a a' ha => ?_
  have hfile := Disk.within_two hx ht.2
  simp only [ha.tablePath_left hx ht.2, ha.tablePath_right hx ht.2, ha.pathText_eq, ha.safe]
  refine abreast_then (abreast_onDisk (Disk.keepsTo_isFile hfile)) fun isFile _ => ?_
  split
  · exact abreast_then (abreast_stored _ (keepsTo_write hfile a.safe _)) fun _ _ =>
      keepsTo_countWrite _
  · exact abreast_fail _

theorem keepsTo_deleteTable (hx : Disk.IsName x) (ht : Disk.IsName (t ++ suffix)) :
    KeepsTo x suffix (fun _ => True) (deleteTable x t) :=
  abreast_then (keepsTo_tablePath hx ht) fun p hp =>
    abreast_then (keepsTo_pathText p) fun _ _ => abreast_stored _ (Disk.keepsTo_unlinkIfThere hp)

end Archive

end Tabular
