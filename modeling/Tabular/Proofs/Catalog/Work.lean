import Tabular.Catalog
import Tabular.Proofs.Archive.Databases

/-!
# Work of a catalog

What each piece of work does on a calm disk whose names all stand for themselves, as long as every
resident database has its directory: what it comes to, what the disk is afterwards, and which
databases are resident.
-/

namespace Tabular

namespace Disk

/-- A calm disk on which every name stands for itself and is not too long. -/
structure Proper (d : Disk) : Prop extends d.Calm where
  names : ∀ p e, d.entries.get? p = some e → ∀ name ∈ p, IsName name ∧ fits name

theorem Proper.put {d : Disk} (hd : d.Proper) {p : Path} (e : Entry) (hp : p ≠ [])
    (hn : ∀ name ∈ p, IsName name ∧ fits name) : (d.put p e).Proper where
  toCalm := hd.toCalm.put e hp
  names := by
    intro q f hq
    rw [put_entries, OrderedMap.get?_put] at hq
    split at hq
    · next he => exact he ▸ hn
    · exact hd.names q f hq

theorem Proper.erase {d : Disk} (hd : d.Proper) {p : Path} (hp : p ≠ []) : (d.erase p).Proper where
  toCalm := hd.toCalm.erase hp
  names := by
    intro q f hq
    rw [erase_entries, OrderedMap.get?_erase] at hq
    split at hq
    · cases hq
    · exact hd.names q f hq

theorem Proper.cut {d : Disk} (hd : d.Proper) {p : Path} (hp : p ≠ []) : (d.cut p).Proper where
  toCalm := hd.toCalm.cut hp
  names := by
    intro q f hq
    rw [get?_cut] at hq
    split at hq
    · cases hq
    · exact hd.names q f hq

theorem empty_proper (root : Text) : (Disk.empty root).Proper := by
  refine ⟨⟨rfl, rfl⟩, fun p e hp => ?_⟩
  rw [Disk.empty, OrderedMap.get?_put] at hp
  split at hp
  · next h => simp [← h]
  · cases hp

/-- A disk with one directory and one file in it. -/
theorem oneFile_proper (root : Text) {x f : Text} (hx : IsName x ∧ fits x) (hf : IsName f ∧ fits f)
    (content : Bytes) :
    (((Disk.empty root).put [x] .directory).put [x, f] (.file content)).Proper :=
  ((empty_proper root).put _ (by simp) (by simpa using hx)).put _ (by simp)
    (by simpa using ⟨hx, hf⟩)

end Disk

namespace Catalog

/-- A catalog on a proper disk, all of whose resident databases have their directories. -/
structure Settled (c : Catalog) : Prop where
  plain : c.archive.Plain
  proper : c.archive.disk.Proper
  grounded : ∀ x, c.resident.has x → c.archive.isKept x

theorem Settled.isKept {c : Catalog} (hc : c.Settled) {x : Text} {d : Database}
    (h : c.resident.get? x = some d) : c.archive.isKept x :=
  hc.grounded x (by rw [OrderedMap.has, h]; rfl)

/-- The catalog with another disk and other resident databases, whatever the counts are. -/
structure Becomes (c : Catalog) (disk : Disk) (resident : OrderedMap Text Database)
    (c' : Catalog) : Prop where
  disk : c'.archive.disk = disk
  suffix : c'.archive.suffix = c.archive.suffix
  safe : c'.archive.safe = c.archive.safe
  stamp : c'.archive.stamp = c.archive.stamp
  mode : c'.mode = c.mode
  resident : c'.resident = resident

/-- The catalog as it was, but for the counts. -/
abbrev Stays (c c' : Catalog) : Prop := c.Becomes c.archive.disk c.resident c'

theorem Becomes.refl (c : Catalog) : c.Stays c := ⟨rfl, rfl, rfl, rfl, rfl, rfl⟩

theorem Becomes.trans {c c' c'' : Catalog} {d d' : Disk} {r r' : OrderedMap Text Database}
    (h : c.Becomes d r c') (h' : c'.Becomes d' r' c'') : c.Becomes d' r' c'' :=
  ⟨h'.disk, h'.suffix.trans h.suffix, h'.safe.trans h.safe, h'.stamp.trans h.stamp,
    h'.mode.trans h.mode, h'.resident⟩

theorem Settled.isName {c : Catalog} (hc : c.Settled) {x : Text} (h : c.archive.isKept x) :
    Disk.IsName x ∧ Disk.fits x := hc.proper.names [x] _ (beq_iff_eq.1 h) x (by simp)

theorem Settled.isName_fileName {c : Catalog} (hc : c.Settled) {x t : Text} {content : Bytes}
    (hg : c.archive.disk.entries.get? [x, c.archive.fileName t] = some (.file content)) :
    Disk.IsName (c.archive.fileName t) ∧ Disk.fits (c.archive.fileName t) :=
  hc.proper.names _ _ hg _ (by simp)

/-- The archive has another disk and other counts, and is the same otherwise. -/
theorem Becomes.archive_eq {c c' : Catalog} {disk : Disk} {r : OrderedMap Text Database}
    (h : c.Becomes disk r c') : c'.archive = { c.archive with
      disk := disk, writes := c'.archive.writes, loads := c'.archive.loads } := by
  obtain ⟨hd, hs, hf, ht, -, -⟩ := h
  cases hc : c'.archive
  simp only [hc] at hd hs hf ht
  rw [hd, hs, hf, ht]

theorem onArchive_run {α : Type} (w : Archive.Work α) (c : Catalog) :
    (onArchive w).run c = ((w.run c.archive).1, { c with archive := (w.run c.archive).2 }) := rfl

theorem onArchive_eq {α : Type} {w : Archive.Work α} {c : Catalog} {r : Except Failure α}
    {a : Archive} (h : w.run c.archive = (r, a)) :
    (onArchive w).run c = (r, { c with archive := a }) := by
  rw [onArchive_run, h]

theorem check_run {α : Type} (x : Except Rejection α) (c : Catalog) :
    (check x).run c = (x.mapError Failure.rejected, c) := rfl

/-! ## Loading -/

/-- The database that a name refers to: the resident one, or the one in the files. -/
def found (c : Catalog) (x : Text) : Except Failure Database :=
  match c.resident.get? x with
  | some d => .ok d
  | none =>
    if Disk.fits x then
      if c.archive.isKept x then c.archive.database x else .error (.rejected (.unknownDatabase x))
    else .error (c.archive.tooLong x)

/-- The resident databases once one has been referred to. -/
def heldAfter (c : Catalog) (x : Text) : OrderedMap Text Database :=
  if c.resident.has x then c.resident
  else match c.found x with
    | .ok d => c.resident.put x d
    | .error _ => c.resident

theorem found_of_get? {c : Catalog} {x : Text} {d : Database} (hr : c.resident.get? x = some d) :
    c.found x = .ok d := by
  simp [found, hr]

theorem found_of_kept {c : Catalog} {x : Text} (hr : c.resident.get? x = none)
    (hfit : Disk.fits x) (hk : c.archive.isKept x) : c.found x = c.archive.database x := by
  simp [found, hr, hfit, hk]

/-- What is found depends on the resident databases and on what the directory holds. -/
theorem found_congr {c w : Catalog} {x : Text} (hr : w.resident.get? x = c.resident.get? x)
    (hk : w.archive.isKept x = c.archive.isKept x)
    (hroot : w.archive.disk.root = c.archive.disk.root)
    (hdb : c.resident.get? x = none → w.archive.database x = c.archive.database x) :
    w.found x = c.found x := by
  rw [found, found, hr, hk, Archive.tooLong_congr hroot]
  cases hc : c.resident.get? x with
  | some d => rfl
  | none => rw [hdb hc]

theorem heldAfter_of_get? {c : Catalog} {x : Text} {d : Database}
    (hr : c.resident.get? x = some d) : c.heldAfter x = c.resident := by
  simp [heldAfter, OrderedMap.has, hr]

theorem heldAfter_of_error {c : Catalog} {x : Text} {f : Failure} (hf : c.found x = .error f) :
    c.heldAfter x = c.resident := by
  simp [heldAfter, hf]

theorem heldAfter_of_ok {c : Catalog} {x : Text} {d : Database} (hr : c.resident.get? x = none)
    (hf : c.found x = .ok d) : c.heldAfter x = c.resident.put x d := by
  simp [heldAfter, OrderedMap.has, hr, hf]

/-- The catalog once a database has been referred to. -/
def holdingFound (c : Catalog) (x : Text) : Catalog := { c with resident := c.heldAfter x }

theorem Becomes.of_holdingFound {c c' : Catalog} {x : Text} {disk : Disk}
    {r : OrderedMap Text Database} (hb : c.Becomes disk r c') :
    (c.holdingFound x).Becomes disk r c' :=
  ⟨hb.disk, hb.suffix, hb.safe, hb.stamp, hb.mode, hb.resident⟩

theorem load_run {c : Catalog} (hs : c.archive.suffix ≠ []) (hd : c.archive.disk.Proper) {x : Text}
    (hk : c.archive.isKept x) :
    ∃ c', (load x).run c = (c.archive.database x, c') ∧
      c.Becomes c.archive.disk (match c.archive.database x with
        | .ok d => c.resident.put x d
        | .error _ => c.resident) c' := by
  obtain ⟨hx, hfit⟩ := hd.names [x] _ (beq_iff_eq.1 hk) x (by simp)
  have hts : ∀ t ∈ c.archive.tableNames x, Disk.IsName (c.archive.fileName t) ∧
      Disk.fits (c.archive.fileName t) ∧
        ∃ content, c.archive.disk.entries.get? [x, c.archive.fileName t] = some (.file content) := by
    intro t ht
    obtain ⟨content, hg⟩ := (Archive.mem_tableNames_iff hs).1 ht
    have hn := hd.names _ _ hg (c.archive.fileName t) (by simp)
    exact ⟨hn.1, hn.2, content, hg⟩
  have ht := onArchive_eq (Archive.tables_run hd.toCalm hx hfit hk)
  obtain ⟨n, hl⟩ := Archive.loadAll_run hd.toCalm hx hfit hk hts
  have hload : (load x).run c =
      (do let ts ← onArchive (Action.forEach (Archive.load x) (c.archive.tableNames x))
          let d ← check ((Database.empty x).addAll ts)
          hold d
          return d : Work Database).run c := by
    rw [load, Action.run_bind_ok ht]
  rw [hload, Action.run_bind, onArchive_eq hl]
  cases hm : (c.archive.tableNames x).mapM (c.archive.fetch x) with
  | error e =>
    have hdb : c.archive.database x = .error e := by rw [Archive.database, hm]; rfl
    rw [hdb]
    exact ⟨_, rfl, rfl, rfl, rfl, rfl, rfl, rfl⟩
  | ok ts =>
    have hdb : c.archive.database x =
        ((Database.empty x).addAll ts).mapError Failure.rejected := by rw [Archive.database, hm]; rfl
    simp only [Action.run_bind, check_run, hdb]
    cases had : (Database.empty x).addAll ts with
    | error e => exact ⟨_, rfl, rfl, rfl, rfl, rfl, rfl, rfl⟩
    | ok d =>
      have hname : d.name = x := Database.addAll_name had
      refine ⟨_, rfl, rfl, rfl, rfl, rfl, rfl, ?_⟩
      exact congrArg (c.resident.put · d) hname

theorem has_eq_false_of_not_kept {c : Catalog} (hc : c.Settled) {x : Text}
    (hk : c.archive.isKept x = false) : c.resident.has x = false := by
  rw [Bool.eq_false_iff]
  intro hr
  rw [hc.grounded x hr] at hk
  cases hk

theorem evict_run {c : Catalog} {x : Text} (h : c.resident.has x = false) :
    (evict x).run c = (.ok (), c) := by
  simp [evict, h]

/-- Using a database that is not resident loads it, if it has a directory. -/
theorem use_run_of_absent {c : Catalog} (hs : c.archive.suffix ≠ []) (hd : c.archive.disk.Proper)
    {x : Text} (hx : Disk.IsName x) (hr : c.resident.get? x = none) :
    ∃ c', (use x).run c = (c.found x, c') ∧
      c.Becomes c.archive.disk (c.heldAfter x) c' := by
  have hhas : c.resident.has x = false := OrderedMap.has_eq_false_iff.2 hr
  cases hfit : Disk.fits x with
  | false =>
    have hf : c.found x = .error (c.archive.tooLong x) := by simp [found, hr, hfit]
    rw [hf, heldAfter_of_error hf, use]
    exact ⟨c, Action.run_bind_error
      (onArchive_eq (Archive.hasDatabase_error hd.toCalm hx hfit)), .refl c⟩
  | true =>
    have hh := onArchive_eq (Archive.hasDatabase_run hd.toCalm hx hfit)
    cases hk : c.archive.isKept x with
    | false =>
      have hf : c.found x = .error (.rejected (.unknownDatabase x)) := by
        simp [found, hr, hfit, hk]
      rw [hf, heldAfter_of_error hf, use, Action.run_bind_ok hh, hk]
      refine ⟨c, ?_, .refl c⟩
      exact Action.run_bind_ok (evict_run hhas)
    | true =>
      rw [use, Action.run_bind_ok hh, hk]
      simp only [if_true]
      rw [Action.run_bind_ok (Action.run_look _ _), hr]
      have hf := found_of_kept hr hfit hk
      have hheld : c.heldAfter x = match c.archive.database x with
          | .ok d => c.resident.put x d
          | .error _ => c.resident := by simp [heldAfter, hhas, hf]
      rw [hf, hheld]
      exact load_run hs hd hk

/-- Using a database comes to the database that the name refers to. -/
theorem use_run {c : Catalog} (hc : c.Settled) {x : Text} (hx : Disk.IsName x) :
    ∃ c', (use x).run c = (c.found x, c') ∧
      c.Becomes c.archive.disk (c.heldAfter x) c' := by
  cases hr : c.resident.get? x with
  | none => exact use_run_of_absent hc.plain.suffix_ne hc.proper hx hr
  | some d =>
    have hk := hc.isKept hr
    have hh := onArchive_eq (Archive.hasDatabase_run hc.proper.toCalm hx (hc.isName hk).2)
    rw [use, Action.run_bind_ok hh, hk]
    simp only [if_true]
    rw [Action.run_bind_ok (Action.run_look _ _), hr, found_of_get? hr, heldAfter_of_get? hr]
    exact ⟨c, rfl, .refl c⟩

/-- So does referring to it otherwise, and then it does not matter whether a resident database has
its directory. -/
theorem database_run_of_proper {c : Catalog} (hs : c.archive.suffix ≠ [])
    (hd : c.archive.disk.Proper) {x : Text} (hx : Disk.IsName x) :
    ∃ c', (Catalog.database x).run c = (c.found x, c') ∧
      c.Becomes c.archive.disk (c.heldAfter x) c' := by
  rw [Catalog.database, Action.run_bind_ok (Action.run_look _ _)]
  cases hr : c.resident.get? x with
  | some d =>
    rw [found_of_get? hr, heldAfter_of_get? hr]
    exact ⟨c, rfl, .refl c⟩
  | none => exact use_run_of_absent hs hd hx hr

theorem database_run {c : Catalog} (hc : c.Settled) {x : Text} (hx : Disk.IsName x) :
    ∃ c', (Catalog.database x).run c = (c.found x, c') ∧
      c.Becomes c.archive.disk (c.heldAfter x) c' :=
  database_run_of_proper hc.plain.suffix_ne hc.proper hx

/-- What was found is resident afterwards. -/
theorem get?_heldAfter {c : Catalog} {x : Text} {d : Database} (h : c.found x = .ok d) :
    (c.heldAfter x).get? x = some d := by
  cases hr : c.resident.get? x with
  | some e =>
    rw [heldAfter_of_get? hr, hr]
    cases h.symm.trans (found_of_get? hr)
    rfl
  | none => rw [heldAfter_of_ok hr h, OrderedMap.get?_put_same]

/-- And nothing is where nothing was found. -/
theorem get?_heldAfter_self (c : Catalog) (x : Text) :
    (c.heldAfter x).get? x = (c.found x).toOption := by
  cases hf : c.found x with
  | ok d => exact get?_heldAfter hf
  | error f =>
    rw [heldAfter_of_error hf]
    cases hr : c.resident.get? x with
    | none => rfl
    | some d => cases hf.symm.trans (found_of_get? hr)

/-- Nothing else is resident that was not. -/
theorem get?_heldAfter_other {c : Catalog} {x y : Text} (h : x ≠ y) :
    (c.heldAfter x).get? y = c.resident.get? y := by
  unfold heldAfter
  split
  · rfl
  · split
    · exact OrderedMap.get?_put_other _ _ h
    · rfl

theorem has_heldAfter {c : Catalog} {x y : Text} (h : c.resident.has y) :
    (c.heldAfter x).get? y = c.resident.get? y := by
  unfold heldAfter
  split
  · rfl
  · next hx =>
    split
    · apply OrderedMap.get?_put_other _ _
      rintro rfl
      exact hx h
    · rfl

/-- A database that is resident after it was referred to was so before, or has been loaded. -/
theorem of_get?_heldAfter {c : Catalog} {x y : Text} {d : Database}
    (h : (c.heldAfter x).get? y = some d) :
    c.resident.get? y = some d ∨
      y = x ∧ c.resident.get? x = none ∧ c.archive.database x = .ok d := by
  unfold heldAfter at h
  split at h
  · exact .inl h
  · next hr =>
    have hnone : c.resident.get? x = none := OrderedMap.has_eq_false_iff.1 (by simpa using hr)
    cases hf : c.found x with
    | error f =>
      rw [hf] at h
      exact .inl h
    | ok e =>
      simp only [hf, OrderedMap.get?_put] at h
      split at h
      · next hxy =>
        cases h
        refine .inr ⟨hxy.symm, hnone, ?_⟩
        unfold found at hf
        rw [hnone] at hf
        simp only at hf
        split at hf
        · split at hf
          · exact hf
          · cases hf
        · cases hf
      · exact .inl h

theorem get?_eq_none_of_heldAfter {c : Catalog} {x y : Text}
    (h : (c.heldAfter x).get? y = none) :
    c.resident.get? y = none := by
  by_contra hne
  have hs : c.resident.has y := Option.isSome_iff_ne_none.2 hne
  rw [has_heldAfter hs] at h
  exact hne h

theorem kept_of_found {c : Catalog} (hc : c.Settled) {x : Text} {d : Database}
    (h : c.found x = .ok d) : c.archive.isKept x := by
  unfold found at h
  split at h
  · next hr => exact hc.isKept hr
  · split at h
    · split at h
      · assumption
      · cases h
    · cases h

theorem Becomes.settled {c c' : Catalog} {disk : Disk} {r : OrderedMap Text Database}
    (hb : c.Becomes disk r c') (hc : c.Settled) (hp : disk.Proper)
    (hg : ∀ y, r.has y → disk.entries.get? [y] = some .directory) : c'.Settled where
  plain := hc.plain.congr hb.suffix hb.stamp
  proper := hb.disk ▸ hp
  grounded := by
    intro y hy
    rw [hb.resident] at hy
    rw [Archive.isKept, hb.disk, hg y hy]
    rfl

theorem Settled.holdingFound {c : Catalog} (hc : c.Settled) (x : Text) :
    (c.holdingFound x).Settled where
  plain := hc.plain
  proper := hc.proper
  grounded := by
    intro y hy
    by_cases hr : c.resident.has y
    · exact hc.grounded y hr
    · by_cases hxy : x = y
      · subst hxy
        cases hf : c.found x with
        | ok d => exact kept_of_found hc hf
        | error e => simp [Catalog.holdingFound, heldAfter, hr, hf] at hy
      · rw [Catalog.holdingFound, OrderedMap.has, get?_heldAfter_other hxy] at hy
        exact absurd hy hr

theorem Settled.of_heldAfter {c c' : Catalog} (hc : c.Settled) {x : Text}
    (h : c.Becomes c.archive.disk (c.heldAfter x) c') : c'.Settled :=
  h.settled hc hc.proper fun y hy => beq_iff_eq.1 ((hc.holdingFound x).grounded y hy)

/-- A database that was found can change, and every resident one still has its directory. -/
theorem Settled.isKept_of_put {c : Catalog} (hc : c.Settled) {x y : Text} {d d' : Database}
    (hf : c.found x = .ok d) (h : ((c.heldAfter x).put x d').has y) : c.archive.isKept y := by
  rw [OrderedMap.has, OrderedMap.get?_put] at h
  split at h
  · next hxy => exact hxy ▸ kept_of_found hc hf
  · exact (hc.holdingFound x).grounded y h

/-! ## Databases come and go -/

/-- What creating a database comes to. -/
def created (c : Catalog) (x : Text) : Except Failure Database :=
  if c.resident.has x then .error (.rejected (.duplicateDatabase x))
  else if Disk.fits x then
    if c.archive.disk.entries.has [x] then .error (.rejected (.duplicateDatabase x))
    else .ok (Database.empty x)
  else .error (c.archive.tooLong x)

theorem created_eq_ok {c : Catalog} {x : Text} {d : Database} (h : c.created x = .ok d) :
    Disk.fits x ∧ c.archive.disk.entries.get? [x] = none := by
  unfold created at h
  split at h
  · cases h
  · split at h
    · next hfit =>
      split at h
      · cases h
      · next hhas => exact ⟨hfit, OrderedMap.has_eq_false_iff.1 (Bool.eq_false_iff.2 hhas)⟩
    · cases h

theorem createDatabase_run {c : Catalog} (hc : c.Settled) {x : Text} (hx : Disk.IsName x) :
    ∃ c', (createDatabase x).run c = (c.created x, c') ∧
      match c.created x with
      | .ok _ => c.Becomes (c.archive.disk.put [x] .directory)
          (c.resident.put x (Database.empty x)) c'
      | .error _ => c.Stays c' := by
  rw [createDatabase, Action.run_bind_ok (Action.run_look _ _), created]
  cases hr : c.resident.has x with
  | true => exact ⟨c, rfl, .refl c⟩
  | false =>
    simp only [Bool.false_eq_true, if_false]
    cases hfit : Disk.fits x with
    | false =>
      exact ⟨c, Action.run_bind_error
        (onArchive_eq (Archive.hasDatabase_error hc.proper.toCalm hx hfit)), .refl c⟩
    | true =>
      rw [Action.run_bind_ok (onArchive_eq (Archive.hasDatabase_run hc.proper.toCalm hx hfit))]
      cases hg : c.archive.disk.entries.get? [x] with
      | none =>
        have hk : c.archive.isKept x = false := by simp [Archive.isKept, hg]
        have hcr := onArchive_eq (Archive.createDatabase_run hc.proper.toCalm hx hfit hg)
        simp only [hk, OrderedMap.has, hg, Option.isSome_none, Bool.false_eq_true, if_false,
          if_true]
        rw [Action.run_bind_ok hcr]
        exact ⟨_, rfl, rfl, rfl, rfl, rfl, rfl, rfl⟩
      | some e =>
        simp only [OrderedMap.has, hg, Option.isSome_some, if_true]
        cases hk : c.archive.isKept x with
        | true => exact ⟨c, rfl, .refl c⟩
        | false =>
          simp only [Bool.false_eq_true, if_false]
          exact ⟨c, Action.run_bind_error (onArchive_eq (Archive.createDatabase_error
            hc.proper.toCalm hx hfit (by simp [hg]))), .refl c⟩

/-- What dropping a database comes to. -/
def dropped (c : Catalog) (x : Text) : Except Failure Unit :=
  if Disk.fits x then
    if c.archive.isKept x then .ok () else .error (.rejected (.unknownDatabase x))
  else .error (c.archive.tooLong x)

theorem dropDatabase_run {c : Catalog} (hc : c.Settled) {x : Text} (hx : Disk.IsName x) :
    ∃ c', (dropDatabase x).run c = (c.dropped x, c') ∧
      match c.dropped x with
      | .ok _ => c.Becomes (c.archive.disk.cut [x]) (c.resident.erase x) c'
      | .error _ => c.Stays c' := by
  rw [dropDatabase, dropped]
  cases hfit : Disk.fits x with
  | false =>
    exact ⟨c, Action.run_bind_error
      (onArchive_eq (Archive.hasDatabase_error hc.proper.toCalm hx hfit)), .refl c⟩
  | true =>
    rw [Action.run_bind_ok (onArchive_eq (Archive.hasDatabase_run hc.proper.toCalm hx hfit))]
    cases hk : c.archive.isKept x with
    | false =>
      exact ⟨c, Action.run_bind_ok (evict_run (has_eq_false_of_not_kept hc hk)), .refl c⟩
    | true =>
      have hdr := onArchive_eq (Archive.dropDatabase_run hc.proper.toCalm hx hfit hk)
      simp only [if_true]
      rw [Action.run_bind_ok hdr, evict, Action.run_change]
      refine ⟨_, rfl, ?_⟩
      cases hr : c.resident.has x with
      | true =>
        simp only [if_true]
        exact ⟨rfl, rfl, rfl, rfl, rfl, rfl⟩
      | false =>
        have he : c.resident.erase x = c.resident :=
          OrderedMap.erase_of_get?_eq_none (OrderedMap.has_eq_false_iff.1 hr)
        simp only [he]
        exact ⟨rfl, rfl, rfl, rfl, rfl, rfl⟩

end Catalog

end Tabular
