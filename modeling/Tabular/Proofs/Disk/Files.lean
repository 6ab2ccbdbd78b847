import Tabular.Proofs.Disk.Refused

/-!
# Files under calls

What calls make of the files of a disk, wherever their paths lead and whatever the disk refuses:
making directories touches no file, and a file that was made new goes again without a trace.
-/

namespace Tabular.Disk

open Tabular.Action

/-- Every file is still there with the text that it had. -/
def FilesKept (d d' : Disk) : Prop :=
  ∀ q content, d.entries.get? q = some (.file content) → d'.entries.get? q = some (.file content)

/-- The same files are there with the same texts. -/
def SameFiles (d d' : Disk) : Prop :=
  ∀ q content, d'.entries.get? q = some (.file content) ↔ d.entries.get? q = some (.file content)

variable {d d' d'' : Disk} {p q place : Path}

namespace SameFiles

theorem refl (d : Disk) : d.SameFiles d := fun _ _ => Iff.rfl

theorem trans (h : d.SameFiles d') (h' : d'.SameFiles d'') : d.SameFiles d'' :=
  fun q content => (h' q content).trans (h q content)

theorem kept (h : d.SameFiles d') : d.FilesKept d' := fun q content => (h q content).2

end SameFiles

theorem entryAt_put_other {entries : OrderedMap Path Entry} {e : Entry} (h : place ≠ q) :
    entryAt (entries.put place e) q = entryAt entries q := by
  simp only [entryAt, OrderedMap.get?_put_other _ _ h]

/-- What is no directory at its place is never the top. -/
theorem get?_of_entryAt {entries : OrderedMap Path Entry} {o : Option Entry}
    (h : entryAt entries place = o) (ho : o ≠ some .directory) : entries.get? place = o := by
  unfold entryAt at h
  split at h
  · exact absurd h.symm ho
  · exact h

/-- With more directories a path still leads to its place. -/
theorem follow_mono {entries entries' : OrderedMap Path Entry}
    (h : ∀ q, entryAt entries q = some .directory → entryAt entries' q = some .directory)
    {here : Path} {names : List Text} (hf : follow entries here names = .ok place) :
    follow entries' here names = .ok place := by
  induction names generalizing here with
  | nil => exact hf
  | cons name names ih =>
    rw [follow] at hf ⊢
    split at hf
    · cases hf
    · cases hf
    · next hhere =>
      rw [h here hhere]
      split at hf
      · next hfits => simpa only [hfits, if_true] using ih hf
      · cases hf

theorem exists_placeOf_eq (p : Path) :
    ∃ here names, ∀ entries, placeOf entries p = follow entries here names := by
  by_cases h : ∃ slashes names, p = ('/' :: slashes) :: names
  · obtain ⟨slashes, names, rfl⟩ := h
    exact ⟨Path.top, names, fun _ => rfl⟩
  · refine ⟨[], p, fun entries => ?_⟩
    unfold placeOf
    split
    · next slashes names => exact absurd ⟨slashes, names, rfl⟩ h
    · rfl

/-- A path leads to its place whatever is put there, unless a directory was there. -/
theorem placeOf_put {entries : OrderedMap Path Entry} (e : Entry)
    (h : placeOf entries p = .ok place) (hplace : entryAt entries place ≠ some .directory) :
    placeOf (entries.put place e) p = .ok place := by
  obtain ⟨here, names, hp⟩ := exists_placeOf_eq p
  rw [hp] at h ⊢
  refine follow_mono (fun q hq => ?_) h
  rw [entryAt_put_other]
  · exact hq
  · rintro rfl
    exact hplace hq

theorem entryAt_put_same {entries : OrderedMap Path Entry} (e : Entry) (h : place ≠ Path.top) :
    entryAt (entries.put place e) place = some e := by
  simp [entryAt, h]

theorem ne_top_of_entryAt {entries : OrderedMap Path Entry}
    (h : entryAt entries place ≠ some .directory) : place ≠ Path.top := by
  rintro rfl
  exact h (entryAt_top entries)

theorem find_eq_ok {entries : OrderedMap Path Entry} {e : Entry}
    (h : find entries p = .ok (place, e)) :
    placeOf entries p = .ok place ∧ entryAt entries place = some e := by
  obtain ⟨place', hplace, h⟩ := Except.bind_eq_ok_iff.1 h
  split at h
  · next hat =>
    cases Except.pure_eq_ok_iff.1 h
    exact ⟨hplace, hat⟩
  · cases h

/-- A file is new at the place of a path, and all else is as it was before. -/
structure Drafted (before : OrderedMap Path Entry) (p place : Path) (d : Disk) : Prop where
  reached : placeOf before p = .ok place
  vacant : entryAt before place = none
  drafted : ∃ content, d.entries = before.put place (.file content)

namespace Drafted

variable {before : OrderedMap Path Entry} (h : Drafted before p place d)
include h

theorem congr (he : d'.entries = d.entries) : Drafted before p place d' :=
  ⟨h.reached, h.vacant, by rw [he]; exact h.drafted⟩

theorem get? : before.get? place = none := get?_of_entryAt h.vacant nofun

theorem placeOf_eq : placeOf d.entries p = .ok place := by
  obtain ⟨content, hd⟩ := h.drafted
  rw [hd]
  exact placeOf_put _ h.reached (by rw [h.vacant]; nofun)

theorem exists_entryAt : ∃ content, entryAt d.entries place = some (.file content) := by
  obtain ⟨content, hd⟩ := h.drafted
  refine ⟨content, ?_⟩
  rw [hd]
  exact entryAt_put_same _ (ne_top_of_entryAt (by rw [h.vacant]; nofun))

/-- Whatever comes of adding bytes, the file is still the only one that is new. -/
theorem append {content : Bytes} {r : Except SystemFault Unit}
    (hr : (append p content).run d = (r, d')) : Drafted before p place d' := by
  cases r with
  | error f => exact h.congr (call_error_entries hr)
  | ok u =>
    obtain ⟨-, entries, hb, rfl⟩ := call_eq_ok hr
    obtain ⟨place', hplace, hb⟩ := Except.bind_eq_ok_iff.1 hb
    cases h.placeOf_eq.symm.trans hplace
    obtain ⟨there, hthere⟩ := h.exists_entryAt
    obtain ⟨draft, hd⟩ := h.drafted
    simp only [hthere] at hb
    cases Except.pure_eq_ok_iff.1 hb
    exact ⟨h.reached, h.vacant, there ++ content, by rw [hd, OrderedMap.put_put]⟩

/-- When the file is removed, all is as it was before. -/
theorem unlink (hr : (unlink p).run d = (.ok (), d')) : d'.entries = before := by
  obtain ⟨-, entries, hb, rfl⟩ := call_eq_ok hr
  obtain ⟨⟨place', e⟩, hfind, hb⟩ := Except.bind_eq_ok_iff.1 hb
  cases h.placeOf_eq.symm.trans (find_eq_ok hfind).1
  cases e with
  | directory => cases hb
  | file content =>
    cases Except.pure_eq_ok_iff.1 hb
    obtain ⟨draft, hd⟩ := h.drafted
    rw [hd]
    exact OrderedMap.erase_put_of_get?_eq_none _ h.get?

end Drafted

end Tabular.Disk
