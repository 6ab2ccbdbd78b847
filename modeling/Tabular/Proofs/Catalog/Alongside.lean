import Tabular.Proofs.Archive.Alike
import Tabular.Proofs.Catalog.Tables

/-!
# Appending alongside rewriting

A catalog that appends new rows to its files stands alongside one that writes every table in whole:
both have the same databases in memory, and on their disks only the contents of files may differ.
For some of the databases the files are also read as the same tables. Each piece of work keeps them
alongside unless a call to the disk fails.
-/

namespace Tabular

namespace Catalog

open Archive

/-- A catalog that appends rows, and one that writes tables in whole; `good` says of which databases
the files are read as the same tables. A database that is not resident has the same files. -/
structure Alongside (good : Text → Prop) (c w : Catalog) : Prop where
  settled : c.Settled
  settled' : w.Settled
  appends : c.mode = .append
  rewrites : w.mode = .whole
  suffix : w.archive.suffix = c.archive.suffix
  stamp : w.archive.stamp = c.archive.stamp
  root : w.archive.disk.root = c.archive.disk.root
  resident : w.resident = c.resident
  alike : ∀ x p, Alike (good x) (c.archive.disk.entries.get? (x :: p))
    (w.archive.disk.entries.get? (x :: p))
  cold : ∀ x, c.resident.get? x = none → ∀ p,
    w.archive.disk.entries.get? (x :: p) = c.archive.disk.entries.get? (x :: p)
  held : ∀ x d, c.resident.get? x = some d → ∀ k t, d.tables.get? k = some t →
    c.archive.Backed (good x) x k t
  ready : ∀ x, good x → c.resident.get? x = none → c.archive.Ready x

variable {good : Text → Prop} {c w c' w' : Catalog} {x : Text} {d : Database}

theorem Alongside.fileName_eq (h : Alongside good c w) (t : Text) :
    w.archive.fileName t = c.archive.fileName t := fileName_congr h.suffix t

theorem Alongside.isKept_eq (h : Alongside good c w) (x : Text) :
    w.archive.isKept x = c.archive.isKept x := by
  rw [Bool.eq_iff_iff, isKept, isKept, beq_iff_eq, beq_iff_eq]
  exact (h.alike x []).eq_directory_iff.symm

/-- What can be written in whole over there can be written in whole here. -/
theorem Alongside.writable (h : Alongside good c w) {t : Text} (hw : w.archive.Writable x t) :
    c.archive.Writable x t := by
  have htemp := temporaryName_congr h.stamp t
  refine ⟨⟨hw.directory.1, h.isKept_eq x ▸ hw.directory.2⟩, htemp ▸ hw.temporary_fits, ?_,
    h.fileName_eq t ▸ hw.file_fits, ?_⟩
  · exact (h.alike x _).eq_none_iff.2 (htemp ▸ hw.temporary_free)
  · intro hd
    exact hw.file_free (h.fileName_eq t ▸ (h.alike x _).eq_directory_iff.1 hd)

theorem Alongside.found_eq (h : Alongside good c w) (x : Text) : w.found x = c.found x := by
  refine found_congr (by rw [h.resident]) (h.isKept_eq x) h.root fun hn => ?_
  refine (database_eq_of_alike h.settled.plain.suffix_ne h.suffix h.root fun f => ?_).symm
  rw [h.cold x hn]
  exact .same _

theorem Alongside.heldAfter_eq (h : Alongside good c w) (x : Text) :
    w.heldAfter x = c.heldAfter x := by
  unfold heldAfter
  rw [h.resident, h.found_eq]

/-- Referring to a database keeps the catalogs alongside. -/
theorem Alongside.holdingFound (h : Alongside good c w) (x : Text) :
    Alongside good (c.holdingFound x) (w.holdingFound x) where
  settled := h.settled.holdingFound x
  settled' := h.settled'.holdingFound x
  appends := h.appends
  rewrites := h.rewrites
  suffix := h.suffix
  stamp := h.stamp
  root := h.root
  resident := h.heldAfter_eq x
  alike := h.alike
  cold := fun y hy => h.cold y (get?_eq_none_of_heldAfter hy)
  held := by
    intro y d hy k t ht
    rcases of_get?_heldAfter hy with hr | ⟨rfl, hnone, hdb⟩
    · exact h.held y d hr k t ht
    · exact backed_of_database h.settled.plain.suffix_ne hdb (fun hg => h.ready y hg hnone) ht
  ready := fun y hg hy => h.ready y hg (get?_eq_none_of_heldAfter hy)

/-- The catalogs after something became of both of them. -/
theorem Alongside.becomes (h : Alongside good c w) {disk disk' : Disk}
    {r : OrderedMap Text Database} (hc : c.Becomes disk r c') (hw : w.Becomes disk' r w')
    (hp : disk.Proper) (hp' : disk'.Proper) (hroot : disk'.root = disk.root)
    (hg : ∀ y, r.has y → disk.entries.get? [y] = some .directory)
    (halike : ∀ y p, Alike (good y) (disk.entries.get? (y :: p)) (disk'.entries.get? (y :: p)))
    (hcold : ∀ y, r.get? y = none → ∀ p,
      disk'.entries.get? (y :: p) = disk.entries.get? (y :: p))
    (hheld : ∀ y d, r.get? y = some d → ∀ k t, d.tables.get? k = some t →
      ({ c.archive with disk := disk } : Archive).Backed (good y) y k t)
    (hready : ∀ y, good y → r.get? y = none → ({ c.archive with disk := disk } : Archive).Ready y) :
    Alongside good c' w' where
  settled := hc.settled h.settled hp hg
  settled' := hw.settled h.settled' hp' fun y hy => (halike y []).eq_directory_iff.1 (hg y hy)
  appends := hc.mode.trans h.appends
  rewrites := hw.mode.trans h.rewrites
  suffix := by rw [hw.suffix, hc.suffix, h.suffix]
  stamp := by rw [hw.stamp, hc.stamp, h.stamp]
  root := by rw [hw.disk, hc.disk, hroot]
  resident := by rw [hw.resident, hc.resident]
  alike := by rw [hw.disk, hc.disk]; exact halike
  cold := by rw [hw.disk, hc.disk, hc.resident]; exact hcold
  held := by
    intro y d hy k t ht
    rw [hc.resident] at hy
    exact (hheld y d hy k t ht).congr hc.suffix hc.stamp (by rw [hc.disk])
  ready := by
    intro y hy hr
    rw [hc.resident] at hr
    exact (hready y hy hr).congr hc.suffix hc.stamp fun f => by rw [hc.disk]

theorem Alongside.stays (h : Alongside good c w) (hc : c.Stays c') (hw : w.Stays w') :
    Alongside good c' w' := by
  refine h.becomes hc (by rwa [← h.resident]) h.settled.proper h.settled'.proper h.root ?_ h.alike
    h.cold h.held h.ready
  exact fun y hy => beq_iff_eq.1 (h.settled.grounded y hy)

/-! ## Changes -/

/-- The file of one name changes in a resident database, and the table of that name with it. -/
theorem Alongside.changeFile (h : Alongside good c w) (hr : c.resident.get? x = some d)
    {d' : Database} {n : Text} {e e' : Option Entry} {disk disk' : Disk}
    (hc : c.Becomes disk (c.resident.put x d') c') (hw : w.Becomes disk' (w.resident.put x d') w')
    (hp : disk.Proper) (hp' : disk'.Proper) (hroot : disk'.root = disk.root)
    (hdisk : ∀ p, disk.entries.get? p =
      if [x, c.archive.fileName n] = p then e else c.archive.disk.entries.get? p)
    (hdisk' : ∀ p, disk'.entries.get? p =
      if [x, c.archive.fileName n] = p then e' else w.archive.disk.entries.get? p)
    (he : Alike (good x) e e')
    (hself : ∀ t, d'.tables.get? (Text.lower n) = some t →
      ({ c.archive with disk := disk } : Archive).Backed (good x) x (Text.lower n) t)
    (hother : ∀ k, k ≠ Text.lower n → d'.tables.get? k = d.tables.get? k) :
    Alongside good c' w' := by
  rw [h.resident] at hw
  have hcases : ∀ y {o}, (c.resident.put x d').get? y = o →
      y = x ∧ o = some d' ∨ y ≠ x ∧ c.resident.get? y = o := by
    intro y o hy
    rw [OrderedMap.get?_put] at hy
    split at hy
    · next hxy => exact .inl ⟨hxy.symm, hy.symm⟩
    · next hxy => exact .inr ⟨Ne.symm hxy, hy⟩
  have helse : ∀ {y} p, y ≠ x → disk.entries.get? (y :: p) = c.archive.disk.entries.get? (y :: p) ∧
      disk'.entries.get? (y :: p) = w.archive.disk.entries.get? (y :: p) := by
    intro y p hy
    have hne : [x, c.archive.fileName n] ≠ y :: p := fun he => hy (List.cons.inj he).1.symm
    rw [hdisk, hdisk', if_neg hne, if_neg hne]
    exact ⟨rfl, rfl⟩
  refine h.becomes hc hw hp hp' hroot ?_ ?_ ?_ ?_ ?_
  · intro y hy
    have hk : c.archive.isKept y := by
      obtain ⟨o, ho⟩ := Option.isSome_iff_exists.1 hy
      rcases hcases y ho with ⟨rfl, -⟩ | ⟨-, hres⟩
      · exact h.settled.isKept hr
      · exact h.settled.isKept hres
    rw [hdisk, if_neg (by simp)]
    exact beq_iff_eq.1 hk
  · intro y p
    rw [hdisk, hdisk']
    split
    · next hxy => cases hxy; exact he
    · exact h.alike y p
  · intro y hy p
    obtain ⟨-, hn⟩ | ⟨hyx, hres⟩ := hcases y hy
    · cases hn
    · rw [(helse p hyx).1, (helse p hyx).2]
      exact h.cold y hres p
  · intro y u hy k t ht
    obtain ⟨rfl, hu⟩ | ⟨hyx, hres⟩ := hcases y hy
    · cases hu
      by_cases hk : k = Text.lower n
      · subst hk
        exact hself t ht
      · rw [hother k hk] at ht
        have hb := h.held y d hr k t ht
        refine hb.congr rfl rfl ?_
        have hne : [y, c.archive.fileName n] ≠ [y, c.archive.fileName t.name] := by
          intro hf
          have hnt : n = t.name := fileName_injective (List.cons.inj (List.cons.inj hf).2).1
          exact hk (by rw [← hb.key, hnt])
        exact (hdisk _).trans (if_neg hne)
    · exact (h.held y u hres k t ht).congr rfl rfl (helse _ hyx).1
  · intro y hy hres
    obtain ⟨-, hn⟩ | ⟨hyx, hres⟩ := hcases y hres
    · cases hn
    · exact (h.ready y hy hres).congr rfl rfl fun f => (helse _ hyx).1

/-- A table is written, here and there, perhaps in different ways. -/
theorem Alongside.putFile (h : Alongside good c w) (hr : c.resident.get? x = some d) {t : Table}
    {content content' : Bytes} (ht : t.Sound)
    (hn : Disk.IsName (c.archive.fileName t.name) ∧ Disk.fits (c.archive.fileName t.name))
    (hread : good x → ReadsAs content t.columns t.rows ∧ ReadsAs content' t.columns t.rows ∧
      (c.archive.Insertable t → Ended content))
    (hc : c.Becomes (c.archive.putFile x t.name content).disk (c.resident.put x (d.replace t)) c')
    (hw : w.Becomes (w.archive.putFile x t.name content').disk
      (w.resident.put x (d.replace t)) w') : Alongside good c' w' := by
  have hx := h.settled.isName (h.settled.isKept hr)
  have hnames : ∀ name ∈ [x, c.archive.fileName t.name], Disk.IsName name ∧ Disk.fits name := by
    simpa using ⟨hx, hn⟩
  unfold Archive.putFile at hc hw
  rw [h.fileName_eq] at hw
  refine h.changeFile hr hc hw (h.settled.proper.put _ (by simp) hnames)
    (h.settled'.proper.put _ (by simp) hnames) h.root (fun p => OrderedMap.get?_put ..)
    (fun p => OrderedMap.get?_put ..) (.files fun hg => ?_) ?_ ?_
  · exact ⟨_, _, (hread hg).1, (hread hg).2.1⟩
  · intro u hu
    rw [Database.replace, OrderedMap.get?_put_same] at hu
    cases hu
    refine ⟨rfl, ht, content, ?_, fun hg => ⟨(hread hg).1, (hread hg).2.2⟩⟩
    exact OrderedMap.get?_put_same ..
  · intro k hk
    exact OrderedMap.get?_put_other _ _ (Ne.symm hk)

/-- A table's file is removed, here and there. -/
theorem Alongside.withoutFile (h : Alongside good c w) (hr : c.resident.get? x = some d) {t : Text}
    (hc : c.Becomes (c.archive.withoutFile x t).disk (c.resident.put x (d.drop t)) c')
    (hw : w.Becomes (w.archive.withoutFile x t).disk (w.resident.put x (d.drop t)) w') :
    Alongside good c' w' := by
  unfold Archive.withoutFile at hc hw
  rw [h.fileName_eq] at hw
  refine h.changeFile hr hc hw (h.settled.proper.erase (by simp)) (h.settled'.proper.erase (by simp))
    h.root (fun p => OrderedMap.get?_erase ..) (fun p => OrderedMap.get?_erase ..) (.same _) ?_ ?_
  · intro u hu
    rw [Database.drop, OrderedMap.get?_erase_same] at hu
    cases hu
  · intro k hk
    exact OrderedMap.get?_erase_other _ (Ne.symm hk)

/-- A database is made, here and there. -/
theorem Alongside.create (h : Alongside good c w) (hx : Disk.IsName x) (hfit : Disk.fits x)
    (hc : c.Becomes (c.archive.disk.put [x] .directory)
      (c.resident.put x (Database.empty x)) c')
    (hw : w.Becomes (w.archive.disk.put [x] .directory)
      (w.resident.put x (Database.empty x)) w') : Alongside good c' w' := by
  have hnames : ∀ name ∈ [x], Disk.IsName name ∧ Disk.fits name := by simpa using ⟨hx, hfit⟩
  have hget : ∀ p, (c.archive.disk.put [x] .directory).entries.get? p =
      if [x] = p then some .directory else c.archive.disk.entries.get? p :=
    fun p => OrderedMap.get?_put ..
  have hget' : ∀ p, (w.archive.disk.put [x] .directory).entries.get? p =
      if [x] = p then some .directory else w.archive.disk.entries.get? p :=
    fun p => OrderedMap.get?_put ..
  rw [h.resident] at hw
  refine h.becomes hc hw (h.settled.proper.put _ (by simp) hnames)
    (h.settled'.proper.put _ (by simp) hnames) h.root ?_ ?_ ?_ ?_ ?_
  · intro y hy
    rw [hget]
    split
    · rfl
    · next hxy =>
      rw [OrderedMap.has, OrderedMap.get?_put_other _ _ (by simpa using hxy)] at hy
      exact beq_iff_eq.1 (h.settled.grounded y hy)
  · intro y p
    rw [hget, hget']
    split
    · exact .same _
    · exact h.alike y p
  · intro y hy p
    have hxy := (OrderedMap.ne_of_get?_put_eq_none hy).symm
    rw [OrderedMap.get?_put_other _ _ hxy] at hy
    rw [hget, hget']
    split
    · rfl
    · exact h.cold y hy p
  · intro y u hy k t ht
    rw [OrderedMap.get?_put] at hy
    split at hy
    · cases hy
      cases ht
    · exact (h.held y u hy k t ht).congr rfl rfl ((hget _).trans (if_neg (by simp)))
  · intro y hy hres
    rw [OrderedMap.get?_put] at hres
    split at hres
    · cases hres
    · exact (h.ready y hy hres).congr rfl rfl fun f => (hget _).trans (if_neg (by simp))

/-- A database is dropped, here and there. -/
theorem Alongside.drop (h : Alongside good c w)
    (hc : c.Becomes (c.archive.disk.cut [x]) (c.resident.erase x) c')
    (hw : w.Becomes (w.archive.disk.cut [x]) (w.resident.erase x) w') : Alongside good c' w' := by
  have hget := c.archive.disk.get?_cut_cons x
  have hget' := w.archive.disk.get?_cut_cons x
  rw [h.resident] at hw
  refine h.becomes hc hw (h.settled.proper.cut (by simp)) (h.settled'.proper.cut (by simp)) h.root
    ?_ ?_ ?_ ?_ ?_
  · intro y hy
    rw [OrderedMap.has, OrderedMap.get?_erase] at hy
    rw [hget]
    split at hy
    · cases hy
    · next hxy =>
      rw [if_neg hxy]
      exact beq_iff_eq.1 (h.settled.grounded y hy)
  · intro y p
    rw [hget, hget']
    split
    · exact .same _
    · exact h.alike y p
  · intro y hy p
    rw [OrderedMap.get?_erase] at hy
    rw [hget, hget']
    split
    · rfl
    · next hxy =>
      rw [if_neg hxy] at hy
      exact h.cold y hy p
  · intro y u hy k t ht
    rw [OrderedMap.get?_erase] at hy
    split at hy
    · cases hy
    · next hxy =>
      exact (h.held y u hy k t ht).congr rfl rfl ((hget _ _).trans (if_neg hxy))
  · intro y hy hres
    by_cases hxy : x = y
    · intro t ht
      obtain ⟨-, -, content, hg, -⟩ := fetch_eq_ok_iff.1 ht
      cases ((hget _ _).trans (if_pos hxy)).symm.trans hg
    · rw [OrderedMap.get?_erase, if_neg hxy] at hres
      exact (h.ready y hy hres).congr rfl rfl fun f => (hget _ _).trans (if_neg hxy)

end Catalog

end Tabular
