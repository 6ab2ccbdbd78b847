import Tabular.Proofs.Catalog.Sound
import Tabular.Proofs.Catalog.Tables
import Tabular.Proofs.Table.Stumbling

/-!
# Work that balks at numbers

Of all the work of a catalog only loading a database balks at a number: at the first file that
cannot be read as a table, if an id in it is too long.
-/

namespace Tabular

open Tabular.Action

variable {σ α β : Type}

section Tame

variable {inv : σ → Prop} {P : α → Prop} {Q : β → Prop} {E : Failure → Prop} {p : Prop}
  {m : Action σ Failure α} {f : α → Action σ Failure β} {s : σ}

theorem not_balks_of_tame {x : Except Failure α} (h : x.Gives P (Failure.Tame p)) : ¬ Balks x := by
  rintro ⟨fault, rfl⟩
  exact h.not_number fault rfl

theorem balks_run_bind : Balks ((m >>= f).run s).1 ↔
    Balks (m.run s).1 ∨ ∃ a t, m.run s = (.ok a, t) ∧ Balks ((f a).run t).1 := by
  rw [run_bind]
  cases hm : m.run s with
  | mk r t => cases r <;> simp [Balks]

/-- What is done after work does not matter if it fails tamely. -/
theorem balks_run_bind_of_tame (hm : Ensures inv P E m)
    (hf : ∀ a, P a → Ensures inv Q (Failure.Tame p) (f a)) (hs : inv s) :
    Balks ((m >>= f).run s).1 ↔ Balks (m.run s).1 := by
  rw [balks_run_bind]
  constructor
  · rintro (h | ⟨a, t, hrun, h⟩)
    · exact h
    · have hm := hm s hs
      rw [hrun] at hm
      exact absurd h (not_balks_of_tame (hf a hm.2 t hm.1).2)
  · exact .inl

end Tame

/-! ## Files -/

namespace Archive

variable {a : Archive} {x t : Text}

/-- The file of a table holds an id that is too long, where it could be read up to there. -/
def StumblesAt (a : Archive) (x t : Text) : Prop :=
  ∃ content text, a.disk.entries.get? [x, a.fileName t] = some (.file content) ∧
    Utf8.decode content = .ok text ∧ Table.StumblesReading (unifyLines text)

theorem balks_fetch_iff : Balks (a.fetch x t) ↔ a.StumblesAt x t := by
  unfold StumblesAt
  cases hg : a.disk.entries.get? [x, a.fileName t] with
  | none => simp [fetch, hg]
  | some e =>
    cases e with
    | directory => simp [fetch, hg]
    | file content =>
      rw [fetch_eq hg, tableOf]
      cases hd : Utf8.decode content with
      | error fault => simp [hd]
      | ok text => simp [hd, Table.balks_decode_iff]

theorem balks_database_iff : Balks (a.database x) ↔
    FirstBad (fun t => ∃ u, a.fetch x t = .ok u) (a.StumblesAt x) (a.tableNames x) := by
  rw [database, balks_bind_of_not fun _ => not_balks_mapError_rejected _, balks_mapM]
  exact firstBad_congr (fun _ _ => Iff.rfl) fun _ _ => balks_fetch_iff

end Archive

/-! ## Work of a catalog -/

namespace Catalog

variable {c : Catalog} {x : Text}

/-- Referring to a database loads it, and that comes to a file with an id that is too long behind
files that are read. -/
structure StumblesLoading (c : Catalog) (x : Text) : Prop where
  absent : c.resident.get? x = none
  fits : Disk.fits x
  kept : c.archive.isKept x
  file : FirstBad (fun t => ∃ u, c.archive.fetch x t = .ok u) (c.archive.StumblesAt x)
    (c.archive.tableNames x)

theorem balks_found_iff : Balks (c.found x) ↔ c.StumblesLoading x := by
  have hiff : c.StumblesLoading x ↔ c.resident.get? x = none ∧ Disk.fits x ∧ c.archive.isKept x ∧
      Balks (c.archive.database x) := by
    rw [Archive.balks_database_iff]
    exact ⟨fun h => ⟨h.absent, h.fits, h.kept, h.file⟩, fun ⟨hr, hf, hk, h⟩ => ⟨hr, hf, hk, h⟩⟩
  rw [hiff]
  unfold found
  split
  · next hr => simp [hr]
  · next hr =>
    split
    · next hf =>
      split
      · next hk => simp [hr, hf, hk]
      · next hk => simp [hk]
    · next hf => simp [hf, Archive.tooLong, Balks]

/-! ## Referring to databases -/

/-- What a catalog needs for loading a database: a proper disk, besides being sound. -/
structure Legible (c : Catalog) : Prop extends c.Sound where
  proper : c.archive.disk.Proper

theorem Legible.balks_database_iff (hc : c.Legible) (hx : Disk.IsName x) :
    Balks ((Catalog.database x).run c).1 ↔ c.StumblesLoading x := by
  obtain ⟨c', hrun, -⟩ := database_run_of_proper hc.suffixed hc.proper hx
  rw [hrun, balks_found_iff]

/-- Using a database that is resident never balks. -/
theorem Legible.balks_use_iff (hc : c.Legible) (hx : Name.IsWord x) :
    Balks ((use x).run c).1 ↔ c.StumblesLoading x := by
  cases hr : c.resident.get? x with
  | none =>
    obtain ⟨c', hrun, -⟩ := use_run_of_absent hc.suffixed hc.proper hx.isName hr
    rw [hrun, balks_found_iff]
  | some d =>
    have hno : ¬ c.StumblesLoading x := fun h => nomatch hr.symm.trans h.absent
    simp only [hno, iff_false]
    have hlook : Ensures Sound (fun _ => True) (Failure.Tame True)
        (onArchive (Archive.hasDatabase x)) := ensures_onArchive (Archive.tame_hasDatabase x)
    rw [use, balks_run_bind]
    rintro (h | ⟨isThere, c', hrun, h⟩)
    · exact not_balks_of_tame (hlook c hc.toSound).2 h
    have hc' : ((onArchive (Archive.hasDatabase x)).run c).2 = c' := congrArg Prod.snd hrun
    -- Looking for the directory leaves what is resident.
    have hr' : c'.resident.get? x = some d := by
      rw [← hr, ← hc']
      rfl
    cases isThere with
    | false =>
      have hlost : Ensures Sound (fun _ : Database => True) (Failure.Tame True) (do
          evict x
          refuse (.unknownDatabase x)) :=
        ensures_bind (ensures_evict x) fun _ _ => ensures_unknown hx.oneLine
      exact not_balks_of_tame (hlost c' (hc' ▸ (hlook c hc.toSound).1)).2 h
    | true =>
      simp only [if_true, Action.run_bind_ok (Action.run_look _ _), hr'] at h
      exact not_balks_ok d h

theorem Legible.balks_createTable_iff (hc : c.Legible) (hx : Name.IsWord x) (t : Text)
    (columns : List Text) : Balks ((createTable x t columns).run c).1 ↔ c.StumblesLoading x := by
  have hdatabase : Ensures Sound Database.Sound (Failure.TidyIf True) (database x) :=
    ensures_database hx.oneLine
  rw [createTable, balks_run_bind_of_tame hdatabase
    (fun d _ => ensures_createIn x t columns d) hc.toSound, hc.balks_database_iff hx.isName]

theorem Legible.balks_dropTable_iff (hc : c.Legible) (hx : Name.IsWord x) {t : Text}
    (ht : Name.IsWord t) : Balks ((dropTable x t).run c).1 ↔ c.StumblesLoading x := by
  have hdatabase : Ensures Sound Database.Sound (Failure.TidyIf True) (database x) :=
    ensures_database hx.oneLine
  have hrest (d : Database) (hd : d.Sound) := ensures_dropIn (p := True) x ht.lower_oneLine hd
  rw [dropTable, balks_run_bind_of_tame hdatabase hrest hc.toSound,
    hc.balks_database_iff hx.isName]

end Catalog

end Tabular
