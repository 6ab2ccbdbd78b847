import Tabular.Proofs.Archive.OneFile
import Tabular.Statement.Reader

/-!
# Disks that are read alike

Two disks with the same directories and the same names of files, some of which have other contents
but are read as the same tables; and what it takes for a row to be put at the end of a file.
-/

namespace Tabular

namespace Archive

/-- What stands at one place of two disks: the same, or two files, which are read as the same table
where that matters. -/
inductive Alike (matters : Prop) : Option Entry → Option Entry → Prop
  | same (e : Option Entry) : Alike matters e e
  | files {content content' : Bytes} (h : matters → ∃ columns rows,
      ReadsAs content columns rows ∧ ReadsAs content' columns rows) :
      Alike matters (some (.file content)) (some (.file content'))

variable {a a' : Archive} {matters : Prop} {x : Text}

theorem Alike.eq_none_iff {e e' : Option Entry} (h : Alike matters e e') :
    e = none ↔ e' = none := by
  cases h <;> simp

theorem Alike.eq_directory_iff {e e' : Option Entry} (h : Alike matters e e') :
    e = some .directory ↔ e' = some .directory := by
  cases h <;> simp

theorem Alike.eq_file_iff {e e' : Option Entry} (h : Alike matters e e') :
    (∃ content, e = some (.file content)) ↔ ∃ content, e' = some (.file content) := by
  cases h <;> simp

/-- Directories with the same names, whose files are read the same, hold the same database. -/
theorem database_eq_of_alike (hs : a.suffix ≠ []) (hsuffix : a'.suffix = a.suffix)
    (hroot : a'.disk.root = a.disk.root)
    (h : ∀ f, Alike True (a.disk.entries.get? [x, f]) (a'.disk.entries.get? [x, f])) :
    a.database x = a'.database x := by
  have hs' : a'.suffix ≠ [] := hsuffix ▸ hs
  have hfile : ∀ t, a'.fileName t = a.fileName t := fun t => by rw [fileName, fileName, hsuffix]
  refine database_congr ?_ ?_
  · refine Text.sorted_eq_of_mem_iff (tableNames_nodup hs x) (tableNames_nodup hs' x) fun t => ?_
    change t ∈ a.tableNames x ↔ t ∈ a'.tableNames x
    rw [mem_tableNames_iff hs, mem_tableNames_iff hs', hfile]
    exact (h _).eq_file_iff
  · intro t _
    have hpath : a'.pathText [x, a.fileName t] = a.pathText [x, a.fileName t] := by
      rw [pathText, pathText, hroot]
    have ht := h (a.fileName t)
    simp only [fetch, hfile, hpath]
    cases hg : a.disk.entries.get? [x, a.fileName t] with
    | none => rw [ht.eq_none_iff.1 hg]
    | some e =>
      rw [hg] at ht
      generalize a'.disk.entries.get? [x, a.fileName t] = e' at ht
      cases ht with
      | same => rfl
      | files hread =>
        obtain ⟨columns, rows, hc, hc'⟩ := hread trivial
        simp only [tableOf_eq_of_readsAs hc, tableOf_eq_of_readsAs hc']

/-- Some command puts a row into the table, and the name of its temporary file is not too long. -/
def Insertable (a : Archive) (t : Table) : Prop :=
  Disk.fits (a.temporaryName t.name) ∧ ∃ command name values row new,
    Statement.ofCommand command = .ok (.insert name values) ∧
      Text.lower name = Text.lower t.name ∧ t.insert values = .ok (row, new)

/-- The file of a table ends with a line break. -/
def EndsFile (a : Archive) (x : Text) (t : Table) : Prop :=
  ∃ content, a.disk.entries.get? [x, a.fileName t.name] = some (.file content) ∧ Ended content

/-- Every table in the files of a directory that a command can put a row into ends with a line
break. -/
def Ready (a : Archive) (x : Text) : Prop :=
  ∀ t, a.fetch x t.name = .ok t → a.Insertable t → a.EndsFile x t

/-- A resident table has a file, which is read as the table and is ready where that matters. -/
structure Backed (a : Archive) (matters : Prop) (x k : Text) (t : Table) : Prop where
  key : Text.lower t.name = k
  sound : t.Sound
  file : ∃ content, a.disk.entries.get? [x, a.fileName t.name] = some (.file content) ∧
    (matters → ReadsAs content t.columns t.rows ∧ (a.Insertable t → Ended content))

/-- What a table needs is at its place. -/
theorem Backed.congr {k : Text} {t : Table} (h : a.Backed matters x k t)
    (hsuffix : a'.suffix = a.suffix) (hstamp : a'.stamp = a.stamp)
    (hg : a'.disk.entries.get? [x, a.fileName t.name] =
      a.disk.entries.get? [x, a.fileName t.name]) : a'.Backed matters x k t := by
  obtain ⟨content, hc, hm⟩ := h.file
  refine ⟨h.key, h.sound, content, ?_, ?_⟩
  · rw [fileName, hsuffix, ← hc]
    exact hg
  · unfold Insertable temporaryName at hm ⊢
    rwa [hstamp]

theorem Ready.congr (h : a.Ready x) (hsuffix : a'.suffix = a.suffix) (hstamp : a'.stamp = a.stamp)
    (hg : ∀ f, a'.disk.entries.get? [x, f] = a.disk.entries.get? [x, f]) : a'.Ready x := by
  intro t ht hi
  unfold EndsFile fileName
  rw [fetch_eq_ok_iff, fileName, hsuffix] at ht
  unfold Insertable temporaryName at hi
  rw [hstamp] at hi
  simp only [hg] at ht ⊢
  rw [hsuffix]
  exact h t (fetch_eq_ok_iff.2 ⟨rfl, ht.2⟩) hi

/-- A database that is loaded from a directory that is ready. -/
theorem backed_of_database {d : Database} (hs : a.suffix ≠ []) (h : a.database x = .ok d)
    (hr : matters → a.Ready x) {k : Text} {t : Table} (ht : d.tables.get? k = some t) :
    a.Backed matters x k t := by
  obtain ⟨-, -, -, hget⟩ := database_eq_ok hs h
  obtain ⟨hk, hf⟩ := (hget k t).1 ht
  obtain ⟨-, -, content, hg, hread⟩ := fetch_eq_ok_iff.1 hf
  refine ⟨hk, sound_of_fetch hf, content, hg, fun hm => ⟨hread, fun hi => ?_⟩⟩
  obtain ⟨_, hg', he⟩ := hr hm t hf hi
  cases hg.symm.trans hg'
  exact he

/-! ## One more row -/

/-- A directory with a table file written anew still holds a database, with that table. -/
theorem exists_database_putFile (hs : a.suffix ≠ []) {d : Database} (hdb : a.database x = .ok d)
    {t new : Table} (ht : a.fetch x t.name = .ok t) (hname : new.name = t.name) (hnew : new.Sound) :
    ∃ d' u, (a.putFile x new.name (Utf8.encode new.encode)).database x = .ok d' ∧
      d'.tables.get? (Text.lower new.name) = some u ∧ u.name = new.name ∧ u.rows = new.rows := by
  obtain ⟨hinj, -⟩ := (exists_database_iff hs).1 ⟨d, hdb⟩
  obtain ⟨-, -, content, hg, -⟩ := fetch_eq_ok_iff.1 ht
  have hlisted : t.name ∈ a.tableNames x := (mem_tableNames_iff hs).2 ⟨content, hg⟩
  obtain ⟨d', hd'⟩ := (exists_database_putFile_iff hs hdb hnew).2 <| by
    intro u hu he
    rw [hname] at he ⊢
    exact hinj u hu _ hlisted he
  exact ⟨d', _, hd', (get?_database_putFile hs hdb hnew hd' _).trans (if_pos rfl), rfl, rfl⟩

/-- A directory with a row at the end of a file that did not end with a line break holds no table
of that name with one more row. -/
theorem length_of_database_append (hs : a.suffix ≠ []) {t u : Table} (ht : a.fetch x t.name = .ok t)
    (he : ¬ a.EndsFile x t) {row : Row} {width : Nat} (hrow : Table.SoundRow width row)
    {content : Bytes} (hg : a.disk.entries.get? [x, a.fileName t.name] = some (.file content))
    {d' : Database} (hd' : (a.putFile x t.name
      (content ++ Utf8.encode (Table.encodeRow row))).database x = .ok d')
    (hu : d'.tables.get? (Text.lower t.name) = some u) (hname : u.name = t.name) :
    u.rows.length = t.rows.length := by
  set a' := a.putFile x t.name (content ++ Utf8.encode (Table.encodeRow row)) with ha'
  obtain ⟨-, -, content', hg', hread'⟩ :=
    fetch_eq_ok_iff.1 (((database_eq_ok (a := a') hs hd').2.2.2 _ _).1 hu).2
  obtain ⟨-, -, content₀, hg₀, hread⟩ := fetch_eq_ok_iff.1 ht
  cases hg.symm.trans hg₀
  have hsame : a'.disk.entries.get? [x, a.fileName t.name] =
      some (.file (content ++ Utf8.encode (Table.encodeRow row))) := OrderedMap.get?_put_same ..
  rw [hname] at hg'
  cases hsame.symm.trans hg'
  exact hread.length_append_row (fun hend => he ⟨content, hg, hend⟩) hrow hread'

end Archive

end Tabular
