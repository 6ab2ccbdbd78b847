import Tabular.Proofs.Archive.Databases

/-!
# One file of a directory

What the listing of a directory, the tables in its files and its database become when one file of it
is written or removed. All other files are read as before, so that there still is a database unless
two names are now the same in small letters.
-/

namespace Tabular.Archive

variable {a a' : Archive} {x f t : Text} {d d' : Database}

/-- There is a database exactly if no two names agree in small letters and every file can be read. -/
theorem exists_database_iff (hs : a.suffix ≠ []) : (∃ d, a.database x = .ok d) ↔
    (∀ t ∈ a.tableNames x, ∀ u ∈ a.tableNames x, Text.lower t = Text.lower u → t = u) ∧
      ∀ t ∈ a.tableNames x, ∃ u, a.fetch x t = .ok u := by
  constructor
  · rintro ⟨d, hd⟩
    obtain ⟨-, hnodup, hread, -⟩ := database_eq_ok hs hd
    exact ⟨List.inj_on_of_nodup_map hnodup, hread⟩
  · rintro ⟨hinj, hread⟩
    exact exists_database ((tableNames_nodup hs x).map_on hinj) hread

/-- Archives that differ in at most one file of a directory. -/
structure DiffersAt (x f : Text) (a a' : Archive) : Prop where
  suffix : a'.suffix = a.suffix
  root : a'.disk.root = a.disk.root
  entries : ∀ g, g ≠ f → a'.disk.entries.get? [x, g] = a.disk.entries.get? [x, g]

theorem DiffersAt.fetch_eq (h : DiffersAt x f a a') (ht : a.fileName t ≠ f) :
    a'.fetch x t = a.fetch x t := by
  have hname := fileName_congr h.suffix t
  have hpath : a'.pathText [x, a.fileName t] = a.pathText [x, a.fileName t] := by
    rw [pathText, pathText, h.root]
  simp only [fetch, hname, hpath, h.entries _ ht]

theorem DiffersAt.mem_tableNames_iff (hs : a.suffix ≠ []) (h : DiffersAt x f a a')
    (ht : a.fileName t ≠ f) : t ∈ a'.tableNames x ↔ t ∈ a.tableNames x := by
  rw [Archive.mem_tableNames_iff (h.suffix ▸ hs), Archive.mem_tableNames_iff hs,
    fileName_congr h.suffix, h.entries _ ht]

theorem fileName_ne {u : Text} (h : u ≠ t) : a.fileName u ≠ a.fileName t := fun he =>
  h (fileName_injective he)

theorem differsAt_put (a : Archive) (x f : Text) (e : Entry) :
    DiffersAt x f a { a with disk := a.disk.put [x, f] e } :=
  ⟨rfl, rfl, fun g hg => OrderedMap.get?_put_other _ _ (by simpa using Ne.symm hg)⟩

theorem differsAt_putFile (a : Archive) (x t : Text) (content : Bytes) :
    DiffersAt x (a.fileName t) a (a.putFile x t content) := differsAt_put ..

theorem differsAt_withoutFile (a : Archive) (x t : Text) :
    DiffersAt x (a.fileName t) a (a.withoutFile x t) :=
  ⟨rfl, rfl, fun g hg => OrderedMap.get?_erase_other _ (by simpa using Ne.symm hg)⟩

/-- A table of another name is in the one database as it is in the other. -/
theorem DiffersAt.get?_iff (hs : a.suffix ≠ []) (h : DiffersAt x (a.fileName t) a a')
    (hd : a.database x = .ok d) (hd' : a'.database x = .ok d') {k : Text} {u : Table}
    (hu : u.name ≠ t) : d'.tables.get? k = some u ↔ d.tables.get? k = some u := by
  rw [(database_eq_ok (h.suffix ▸ hs) hd').2.2.2, (database_eq_ok hs hd).2.2.2,
    h.fetch_eq (fileName_ne hu)]

/-- A file that is no table's does not count. -/
theorem DiffersAt.database_eq (hs : a.suffix ≠ []) (h : DiffersAt x f a a')
    (hf : ∀ t, a.fileName t ≠ f) :
    a'.tableNames x = a.tableNames x ∧ a'.database x = a.database x := by
  have hnames : a'.tableNames x = a.tableNames x :=
    Text.sorted_eq_of_mem_iff (tableNames_nodup (h.suffix ▸ hs) x) (tableNames_nodup hs x)
      fun t => h.mem_tableNames_iff hs (hf t)
  exact ⟨hnames, database_congr hnames fun t _ => h.fetch_eq (hf t)⟩

/-! ## A file that is removed -/

theorem mem_tableNames_withoutFile_iff (hs : a.suffix ≠ []) {u : Text} :
    u ∈ (a.withoutFile x t).tableNames x ↔ u ≠ t ∧ u ∈ a.tableNames x := by
  by_cases hu : u = t
  · subst hu
    have hnone : (a.withoutFile x u).disk.entries.get? [x, (a.withoutFile x u).fileName u] = none :=
      OrderedMap.get?_erase_same ..
    rw [mem_tableNames_iff (a := a.withoutFile x u) hs, hnone]
    simp
  · rw [(differsAt_withoutFile a x t).mem_tableNames_iff hs (fileName_ne hu)]
    simp [hu]

/-- A directory without a file still holds a database, and only the table of that file is gone. -/
theorem database_withoutFile (hs : a.suffix ≠ []) (hd : a.database x = .ok d) (t : Text) :
    ∃ d', (a.withoutFile x t).database x = .ok d' ∧
      ∀ k u, d'.tables.get? k = some u ↔ u.name ≠ t ∧ d.tables.get? k = some u := by
  have hdiffers := differsAt_withoutFile a x t
  obtain ⟨hinj, hread⟩ := (exists_database_iff hs).1 ⟨d, hd⟩
  have hmem : ∀ u, u ∈ (a.withoutFile x t).tableNames x → u ≠ t ∧ u ∈ a.tableNames x := fun u =>
    (mem_tableNames_withoutFile_iff hs).1
  obtain ⟨d', hd'⟩ := (exists_database_iff (a := a.withoutFile x t) hs).2 <| by
    refine ⟨fun u hu v hv => hinj u (hmem u hu).2 v (hmem v hv).2, fun u hu => ?_⟩
    rw [hdiffers.fetch_eq (fileName_ne (hmem u hu).1)]
    exact hread u (hmem u hu).2
  refine ⟨d', hd', fun k u => ?_⟩
  by_cases hu : u.name = t
  · have hnot : d'.tables.get? k ≠ some u := by
      intro hget
      obtain ⟨-, hfetch⟩ := ((database_eq_ok (a := a.withoutFile x t) hs hd').2.2.2 k u).1 hget
      obtain ⟨-, -, content, hfile, -⟩ := fetch_eq_ok_iff.1 hfetch
      have hlisted := (mem_tableNames_iff (a := a.withoutFile x t) hs).2 ⟨content, hfile⟩
      exact (hmem _ hlisted).1 hu
    simp [hu, hnot]
  · rw [hdiffers.get?_iff hs hd hd' hu]
    simp [hu]

/-! ## A table that is written -/

theorem mem_tableNames_putFile_iff (hs : a.suffix ≠ []) {u : Text} {content : Bytes} :
    u ∈ (a.putFile x t content).tableNames x ↔ u = t ∨ u ∈ a.tableNames x := by
  by_cases hu : u = t
  · subst hu
    rw [mem_tableNames_iff (a := a.putFile x u content) hs]
    exact iff_of_true ⟨content, OrderedMap.get?_put_same ..⟩ (.inl rfl)
  · rw [(differsAt_putFile a x t content).mem_tableNames_iff hs (fileName_ne hu)]
    simp [hu]

/-- A sound table that is written in whole is read back, with its next id computed anew. -/
theorem fetch_putFile {t : Table} (ht : t.Sound) :
    (a.putFile x t.name (Utf8.encode t.encode)).fetch x t.name =
      .ok { t with nextId := Table.followingId t.rows } :=
  fetch_eq_ok_iff.2 ⟨rfl, rfl, _, OrderedMap.get?_put_same .., readsAs_encode ht⟩

theorem fetch_putFile_other {content : Bytes} {u : Text} (hu : u ≠ t) :
    (a.putFile x t content).fetch x u = a.fetch x u :=
  (differsAt_putFile a x t content).fetch_eq (fileName_ne hu)

/-- A directory in which a table is written holds a database exactly if no other table has its name
in another spelling. -/
theorem exists_database_putFile_iff (hs : a.suffix ≠ []) (hd : a.database x = .ok d) {t : Table}
    (ht : t.Sound) : (∃ d', (a.putFile x t.name (Utf8.encode t.encode)).database x = .ok d') ↔
      ∀ u ∈ a.tableNames x, Text.lower u = Text.lower t.name → u = t.name := by
  obtain ⟨hinj, hread⟩ := (exists_database_iff hs).1 ⟨d, hd⟩
  rw [exists_database_iff (a := a.putFile x t.name (Utf8.encode t.encode)) hs]
  simp only [mem_tableNames_putFile_iff hs]
  constructor
  · rintro ⟨hinj', -⟩ u hu he
    exact hinj' u (.inr hu) t.name (.inl rfl) he
  · intro hfree
    constructor
    · rintro u (rfl | hu) v (rfl | hv) he
      · rfl
      · exact (hfree v hv he.symm).symm
      · exact hfree u hu he
      · exact hinj u hu v hv he
    · intro u hu
      by_cases hut : u = t.name
      · rw [hut]
        exact ⟨_, fetch_putFile ht⟩
      · rw [fetch_putFile_other hut]
        exact hread u (hu.resolve_left hut)

/-- Such a database has the table as it is read back, and the other tables as they were. -/
theorem get?_database_putFile (hs : a.suffix ≠ []) (hd : a.database x = .ok d) {t : Table}
    (ht : t.Sound) (hd' : (a.putFile x t.name (Utf8.encode t.encode)).database x = .ok d')
    (k : Text) : d'.tables.get? k = if k = Text.lower t.name then
      some { t with nextId := Table.followingId t.rows } else d.tables.get? k := by
  obtain ⟨-, -, -, hget⟩ := database_eq_ok hs hd
  obtain ⟨-, -, -, hget'⟩ := database_eq_ok (a := a.putFile x t.name _) hs hd'
  by_cases hk : k = Text.lower t.name
  · rw [if_pos hk, hget']
    exact ⟨hk.symm, fetch_putFile ht⟩
  · rw [if_neg hk]
    refine Option.ext fun u => ?_
    rw [hget', hget]
    refine and_congr_right fun hlower => ?_
    have hne : u.name ≠ t.name := fun he => hk (hlower.symm.trans (congrArg Text.lower he))
    rw [fetch_putFile_other hne]

end Tabular.Archive
