import Tabular.Proofs.Catalog.Outcomes
import Tabular.Proofs.Statement.Names

/-!
# Sane catalogs

A catalog is sane if every table of a resident database is sound, is found under its name in small
letters and has a file name that fits. Whatever a statement makes of a sane catalog is sane.
-/

namespace Tabular

/-- A key that is there stays when something is stored. -/
theorem OrderedMap.has_put_of_has {κ α : Type} [DecidableEq κ] {m : OrderedMap κ α} {j : κ} (k : κ)
    (a : α) (h : m.has j) : (m.put k a).has j := by
  rw [has, get?_put]
  split
  · rfl
  · exact h

/-- The one table that a statement is about is named by a word. -/
theorem Statement.named_table {s : Statement} (h : s.Named) {t : Text} (ht : s.table? = some t) :
    Name.IsWord t := by
  cases s <;> cases ht <;> exact h

namespace Disk

theorem Proper.emptied {d : Disk} (hd : d.Proper) (p : Path) : (d.emptied p).Proper where
  unrefused := hd.unrefused
  root := by
    rw [get?_emptied, if_neg fun h => h.2 (List.prefix_nil.1 h.1).symm]
    exact hd.root
  names := by
    intro q e hq
    rw [get?_emptied] at hq
    split at hq
    · cases hq
    · exact hd.names q e hq

end Disk

/-- A table that can be held under a key. -/
structure Archive.Holdable (a : Archive) (key : Text) (t : Table) : Prop where
  sound : t.Sound
  key_eq : Text.lower t.name = key
  isName : Disk.IsName (a.fileName t.name)
  fits : Disk.fits (a.fileName t.name)

theorem Archive.Holdable.congr {a a' : Archive} {key : Text} {t : Table} (h : a.Holdable key t)
    (hs : a'.suffix = a.suffix) : a'.Holdable key t :=
  ⟨h.sound, h.key_eq, by rw [fileName_congr hs]; exact h.isName,
    by rw [fileName_congr hs]; exact h.fits⟩

namespace Catalog

structure Sane (c : Catalog) : Prop where
  settled : c.Settled
  held : ∀ x d, c.resident.get? x = some d →
    ∀ k t, d.tables.get? k = some t → c.archive.Holdable k t

variable {c c' : Catalog} {x : Text} {d : Database} {t : Table} {disk : Disk}
  {r : OrderedMap Text Database}

theorem Sane.becomes (hc : c.Sane) (hb : c.Becomes disk r c') (hp : disk.Proper)
    (hg : ∀ y, r.has y → disk.entries.get? [y] = some .directory)
    (hr : ∀ y d, r.get? y = some d → ∀ k t, d.tables.get? k = some t → c.archive.Holdable k t) :
    c'.Sane where
  settled := hb.settled hc.settled hp hg
  held := by
    intro y d hy k t ht
    rw [hb.resident] at hy
    exact (hr y d hy k t ht).congr hb.suffix

theorem Sane.stays (hc : c.Sane) (hb : c.Stays c') : c'.Sane :=
  hc.becomes hb hc.settled.proper (fun y hy => beq_iff_eq.1 (hc.settled.grounded y hy)) hc.held

theorem Sane.isName (hc : c.Sane) (hr : c.resident.get? x = some d) :
    Disk.IsName x ∧ Disk.fits x := hc.settled.isName (hc.settled.isKept hr)

/-- Every directory of a resident database stays if no entry right below the root goes. -/
theorem Sane.grounded_of (hc : c.Sane) (hget : ∀ y, disk.entries.get? [y] =
      c.archive.disk.entries.get? [y]) {y : Text} (hy : c.resident.has y) :
    disk.entries.get? [y] = some .directory := by
  rw [hget]
  exact beq_iff_eq.1 (hc.settled.grounded y hy)

/-- A resident database takes on another shape. -/
theorem Sane.reshape (hc : c.Sane) {d' : Database} (hr : c.resident.get? x = some d)
    (hb : c.Becomes disk (c.resident.put x d') c') (hp : disk.Proper)
    (hget : ∀ y, disk.entries.get? [y] = c.archive.disk.entries.get? [y])
    (hd : ∀ k t, d'.tables.get? k = some t → c.archive.Holdable k t) : c'.Sane := by
  refine hc.becomes hb hp ?_ ?_
  · intro y hy
    rw [OrderedMap.has, OrderedMap.get?_put] at hy
    split at hy
    · next hxy => exact hxy ▸ hc.grounded_of hget (by rw [OrderedMap.has, hr]; rfl)
    · exact hc.grounded_of hget hy
  · intro y u hy k t ht
    rw [OrderedMap.get?_put] at hy
    split at hy
    · cases hy
      exact hd k t ht
    · exact hc.held y u hy k t ht

theorem Sane.holdable_replace (hc : c.Sane) (hr : c.resident.get? x = some d)
    (ht : c.archive.Holdable (Text.lower t.name) t) {k : Text} {u : Table}
    (hu : (d.replace t).tables.get? k = some u) : c.archive.Holdable k u := by
  rw [Database.replace, OrderedMap.get?_put] at hu
  split at hu
  · next hk => cases hu; exact hk ▸ ht
  · exact hc.held x d hr k u hu

/-- One file of a resident database changes, and perhaps the table under some name. -/
theorem Sane.put_two (hc : c.Sane) (hr : c.resident.get? x = some d) {f : Text} {content : Bytes}
    (hf : Disk.IsName f ∧ Disk.fits f) :
    (c.archive.disk.put [x, f] (.file content)).Proper ∧
      ∀ y, (c.archive.disk.put [x, f] (.file content)).entries.get? [y] =
        c.archive.disk.entries.get? [y] :=
  ⟨hc.settled.proper.put _ (by simp) (by simpa using ⟨hc.isName hr, hf⟩),
    fun y => OrderedMap.get?_put_other _ _ (by simp)⟩

/-- The tables of a database that is loaded can be held. -/
theorem holdable_of_database (hc : c.Settled) (hd : c.archive.database x = .ok d) {k : Text}
    (ht : d.tables.get? k = some t) : c.archive.Holdable k t := by
  obtain ⟨-, -, -, hget⟩ := Archive.database_eq_ok hc.plain.suffix_ne hd
  obtain ⟨hk, hf⟩ := (hget k t).1 ht
  obtain ⟨-, -, content, hg, -⟩ := Archive.fetch_eq_ok_iff.1 hf
  obtain ⟨hn, hfit⟩ := hc.isName_fileName hg
  exact ⟨Archive.sound_of_fetch hf, hk, hn, hfit⟩

/-- The table that a change makes takes the place of the one that it changes. -/
theorem Sane.holdable_edit (hc : c.Sane) {old new : Table} {s : Statement} {result : Result}
    {edit : Edit} {k : Text} (hr : c.resident.get? x = some d) (hold : d.tables.get? k = some old)
    (hw : s.edit old = .ok (result, edit)) (hn : edit.table? = some new) :
    c.archive.Holdable k new ∧ new.name = old.name := by
  have h := hc.held x d hr k old hold
  have hname := (Statement.edit_fits h.sound hw).table hn
  refine ⟨⟨hname.1, ?_, ?_, ?_⟩, hname.2⟩ <;> rw [hname.2]
  · exact h.key_eq
  · exact h.isName
  · exact h.fits

/-- Success keeps a catalog sane. -/
theorem Sane.succeeds (hc : c.Sane) {s : Statement} (hs : s.Named) {selected : Option Text}
    {result : Result} (h : c.Succeeds selected s result disk r) (hb : c.Becomes disk r c') :
    c'.Sane := by
  cases h with
  | @use x d hf =>
    refine hc.becomes hb hc.settled.proper ?_ ?_
    · exact fun y hy => beq_iff_eq.1 ((hc.settled.holdingFound x).grounded y hy)
    · intro y u hy k t ht
      obtain hy | ⟨rfl, -, hdb⟩ := of_get?_heldAfter hy
      · exact hc.held y u hy k t ht
      · exact holdable_of_database hc.settled hdb ht
  | @createDatabase x hfit hfree =>
    have hx : Disk.IsName x := Name.IsWord.isName hs
    refine hc.becomes hb (hc.settled.proper.put _ (by simp) (by simpa using ⟨hx, hfit⟩)) ?_ ?_
    · intro y hy
      rw [Disk.put_entries, OrderedMap.get?_put]
      split
      · rfl
      · next hxy =>
        rw [OrderedMap.has, OrderedMap.get?_put_other _ _ (by simpa using hxy)] at hy
        exact beq_iff_eq.1 (hc.settled.grounded y hy)
    · intro y u hy k t ht
      rw [OrderedMap.get?_put] at hy
      split at hy
      · cases hy
        cases ht
      · exact hc.held y u hy k t ht
  | @dropDatabase x =>
    refine hc.becomes hb (hc.settled.proper.cut (by simp)) ?_ ?_
    · intro y hy
      rw [OrderedMap.has, OrderedMap.get?_erase] at hy
      rw [Disk.get?_cut_cons]
      split at hy
      · cases hy
      · next hxy =>
        rw [if_neg hxy]
        exact beq_iff_eq.1 (hc.settled.grounded y hy)
    · intro y u hy k t ht
      rw [OrderedMap.get?_erase] at hy
      split at hy
      · cases hy
      · exact hc.held y u hy k t ht
  | @createTable x t columns d new _ hr _ hmade hw =>
    have hname : new.name = t := by rw [(Table.create_eq_ok hmade).2]
    have hf : Disk.IsName (c.archive.fileName new.name) := by
      rw [hname]
      exact hc.settled.plain.isName_fileName hs
    obtain ⟨hp, hget⟩ := hc.put_two hr ⟨hf, hw.file_fits⟩
    exact hc.reshape hr hb hp hget fun k u hu => hc.holdable_replace hr
      ⟨Table.create_sound hmade, rfl, hf, hw.file_fits⟩ hu
  | @dropTable x t d old _ hr _ =>
    refine hc.reshape hr hb (hc.settled.proper.erase (by simp)) ?_ ?_
    · exact fun y => OrderedMap.get?_erase_other _ (by simp)
    · intro k u hu
      rw [Database.drop, OrderedMap.get?_erase] at hu
      split at hu
      · cases hu
      · exact hc.held x d hr k u hu
  | @edit s x t d old result edit disk _ _ hr hold hw hwr =>
    cases hn : edit.table? with
    | none =>
      cases edit with
      | none =>
        cases hwr
        exact hc.stays hb
      | whole t => cases hn
      | row t row => cases hn
    | some new =>
      obtain ⟨hh, -⟩ := hc.holdable_edit hr hold hw hn
      have hh' : c.archive.Holdable (Text.lower new.name) new := hh.key_eq.symm ▸ hh
      have hput : ∃ content, disk = (c.archive.putFile x new.name content).disk := by
        cases hwr <;> cases hn <;> exact ⟨_, rfl⟩
      obtain ⟨content, rfl⟩ := hput
      rw [Edit.made, hn] at hb
      obtain ⟨hp, hget⟩ := hc.put_two hr ⟨hh.isName, hh.fits⟩
      exact hc.reshape hr hb hp hget fun k u hu => hc.holdable_replace hr hh' hu
  | join => exact hc.stays hb

/-- Failure keeps a catalog sane. -/
theorem Sane.fails (hc : c.Sane) {s : Statement} (hs : s.Named) {selected : Option Text}
    {f : Failure} (h : c.Fails selected s f disk r) (hb : c.Becomes disk r c') : c'.Sane := by
  cases h with
  | unchanged => exact hc.stays hb
  | unworked => exact hc.stays hb
  | @emptied x p e hk =>
    refine hc.becomes hb (hc.settled.proper.emptied _) ?_ hc.held
    refine fun y => hc.grounded_of fun y => ?_
    rw [Disk.get?_emptied, if_neg]
    rintro ⟨hp, hne⟩
    obtain ⟨rest, hrest⟩ := hp
    simp_all
  | @draft x t columns f content _ hk _ hfit hfree =>
    have hn : Disk.IsName (c.archive.temporaryName t) :=
      Archive.isName_temporaryName hc.settled.plain (hc.settled.plain.isName_fileName hs)
    refine hc.becomes hb (hc.settled.proper.put _ (by simp)
      (by simpa using ⟨hc.settled.isName hk, hn, hfit⟩)) ?_ hc.held
    exact fun y => hc.grounded_of fun y => OrderedMap.get?_put_other _ _ (by simp)
  | @edit s x t d old new result edit f disk _ _ hr hold hw hn hleft =>
    obtain ⟨hh, -⟩ := hc.holdable_edit hr hold hw hn
    have hh' : c.archive.Holdable (Text.lower new.name) new := hh.key_eq.symm ▸ hh
    have hdisk : disk.Proper ∧ ∀ y, disk.entries.get? [y] = c.archive.disk.entries.get? [y] := by
      cases hleft with
      | unwritten => exact ⟨hc.settled.proper, fun _ => rfl⟩
      | draft _ hn' hfit _ =>
        cases hn.symm.trans hn'
        exact hc.put_two hr ⟨Archive.isName_temporaryName hc.settled.plain hh.isName, hfit⟩
      | line => cases hn; exact hc.put_two hr ⟨hh.isName, hh.fits⟩
      | missing => exact ⟨hc.settled.proper, fun _ => rfl⟩
    exact hc.reshape hr hb hdisk.1 hdisk.2 fun k u hu => hc.holdable_replace hr hh' hu

/-! ## What stays resident -/

variable {s : Statement} {selected : Option Text} {y : Text}

theorem Succeeds.has_used {result : Result} (h : c.Succeeds selected (.use y) result disk r) :
    r.has y := by
  cases h with
  | use hf => rw [OrderedMap.has, get?_heldAfter hf]; rfl
  | edit hs => cases hs

/-- A resident database stays resident unless it is dropped. -/
theorem Succeeds.has {result : Result} (h : c.Succeeds selected s result disk r)
    (hy : c.resident.has y) (hs : s ≠ .dropDatabase y) : r.has y := by
  cases h with
  | use => rw [OrderedMap.has, has_heldAfter hy]; exact hy
  | createDatabase => exact OrderedMap.has_put_of_has _ _ hy
  | @dropDatabase x =>
    have hxy : x ≠ y := fun h => hs (congrArg Statement.dropDatabase h)
    rw [OrderedMap.has, OrderedMap.get?_erase_other _ hxy]
    exact hy
  | createTable => exact OrderedMap.has_put_of_has _ _ hy
  | dropTable => exact OrderedMap.has_put_of_has _ _ hy
  | edit =>
    unfold Edit.made
    split
    · exact hy
    · exact OrderedMap.has_put_of_has _ _ hy
  | join => exact hy

theorem Fails.has {f : Failure} (h : c.Fails selected s f disk r) (hy : c.resident.has y) :
    r.has y := by
  cases h with
  | edit => exact OrderedMap.has_put_of_has _ _ hy
  | _ => exact hy

end Catalog

end Tabular
