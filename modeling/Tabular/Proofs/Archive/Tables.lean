import Mathlib.Data.List.Nodup
import Tabular.Proofs.Archive.Work

/-!
# Table files of an archive

What listing, reading, writing and removing table files does on a calm disk. A table is written in
whole if its file's name and its temporary file's name are fit and free; then its file is all that
changes. A table that is not written leaves the disk as it was.
-/

namespace Tabular.Archive

/-! ## Listing -/

/-- The table that a member of a directory is for. -/
def memberTable? (suffix : Text) : Text × Entry → Option Text
  | (name, .file _) => tableOf? suffix name
  | (_, .directory) => none

/-- The names of the tables of a database as its directory has them. -/
def tableNames (a : Archive) (x : Text) : List Text :=
  Text.sorted ((Disk.members a.disk.entries [x]).filterMap (memberTable? a.suffix))

theorem tables_run {a : Archive} {x : Text} (hd : a.disk.Calm) (hx : Disk.IsName x)
    (hfit : Disk.fits x) (hk : a.isKept x) : (tables x).run a = (.ok (a.tableNames x), a) := by
  have hh := hasDatabase_run hd hx hfit
  rw [hk] at hh
  have hl : (onDisk (Disk.list [x])).run a = (.ok (Disk.members a.disk.entries [x]), a) :=
    onDisk_ok ((hd.reaches_one hx hfit).list_run (beq_iff_eq.1 hk))
  have hf : (fun member : Text × Entry => match member with
      | (name, .file _) => tableOf? a.suffix name
      | (_, .directory) => none) = memberTable? a.suffix := by
    funext ⟨name, e⟩
    cases e <;> rfl
  rw [tables, Action.run_bind_ok hh, if_pos rfl, databasePath_eq hx, Action.run_bind_ok hl,
    tableNames, ← hf]
  rfl

theorem tableOf?_eq_some_iff {suffix name t : Text} (hs : suffix ≠ []) :
    tableOf? suffix name = some t ↔ name = t ++ suffix := by
  have he : suffix.isEmpty = false := by simpa using hs
  unfold tableOf? Text.endsWith
  simp only [List.isPrefixOf_iff_prefix, List.reverse_prefix]
  split
  · next h =>
    obtain ⟨u, rfl⟩ := h
    simp [he]
  · next h =>
    simp only [reduceCtorEq, false_iff]
    rintro rfl
    exact h (List.suffix_append _ _)

/-- The tables of a database are those that have a file. -/
theorem mem_tableNames_iff {a : Archive} (hs : a.suffix ≠ []) {x t : Text} :
    t ∈ a.tableNames x ↔
      ∃ content, a.disk.entries.get? [x, a.fileName t] = some (.file content) := by
  simp only [tableNames, Text.mem_sorted, List.mem_filterMap, Prod.exists, Disk.mem_members_iff]
  constructor
  · rintro ⟨name, e, hg, h⟩
    cases e with
    | directory => cases h
    | file content =>
      rw [memberTable?, tableOf?_eq_some_iff hs] at h
      exact ⟨content, by rw [fileName, ← h]; exact hg⟩
  · rintro ⟨content, hg⟩
    exact ⟨a.fileName t, .file content, hg, (tableOf?_eq_some_iff hs).2 rfl⟩

/-- No table is listed twice. -/
theorem tableNames_nodup {a : Archive} (hs : a.suffix ≠ []) (x : Text) :
    (a.tableNames x).Nodup := by
  have hm := Disk.members_pairwise a.disk.entries [x]
  apply ((Text.sorted_perm _).nodup_iff).2
  refine List.Pairwise.filterMap _ ?_ hm
  rintro ⟨m, d⟩ ⟨n, e⟩ hne t ht u hu htu
  cases d with
  | directory => cases ht
  | file _ =>
    cases e with
    | directory => cases hu
    | file _ =>
      have hm : m = t ++ a.suffix := (tableOf?_eq_some_iff hs).1 ht
      have hn : n = u ++ a.suffix := (tableOf?_eq_some_iff hs).1 hu
      exact hne (by rw [hm, hn, htu])

/-! ## Reading -/

/-- The table in the file of a name. -/
def fetch (a : Archive) (x t : Text) : Except Failure Table :=
  let path := a.pathText [x, a.fileName t]
  match a.disk.entries.get? [x, a.fileName t] with
  | some (.file content) => tableOf t path content
  | _ => .error (.rejected (.storage (.readFile path (.refused .notFound path none))))

theorem fetch_eq {a : Archive} {x t : Text} {content : Bytes}
    (hc : a.disk.entries.get? [x, a.fileName t] = some (.file content)) :
    a.fetch x t = tableOf t (a.pathText [x, a.fileName t]) content := by
  simp only [fetch, hc]

/-- A table file is read, and the count of loads is all that changes. -/
theorem load_run {a : Archive} (hd : a.disk.Calm) {x t : Text} (hx : Disk.IsName x)
    (hfit : Disk.fits x) (hk : a.isKept x) (ht : Disk.IsName (a.fileName t))
    (htfit : Disk.fits (a.fileName t)) {content : Bytes}
    (hc : a.disk.entries.get? [x, a.fileName t] = some (.file content)) :
    ∃ n, (load x t).run a = (a.fetch x t, { a with loads := n }) := by
  have hr := (hd.reaches_two hx hfit (beq_iff_eq.1 hk) ht htfit).read_run hc
  have hs : (stored (.readFile (a.pathText [x, a.fileName t])) (Disk.read [x, a.fileName t])).run a
      = (.ok content, a) := stored_ok hr
  rw [fetch_eq hc, load, Action.run_bind_ok (Action.run_look _ _),
    Action.run_bind_ok (Action.run_look _ _), a.tablePath_eq hx ht, Action.run_bind_ok hs, tableOf]
  cases Utf8.decode content with
  | error fault => exact ⟨a.loads, rfl⟩
  | ok text =>
    simp only
    cases hdec : Table.decode t (unifyLines text) (a.pathText [x, a.fileName t]) with
    | error e => exact ⟨a.loads, rfl⟩
    | ok u => exact ⟨a.loads + 1, rfl⟩

/-- Table files are read one after the other, up to the first that holds no table. -/
theorem loadAll_run {a : Archive} (hd : a.disk.Calm) {x : Text} (hx : Disk.IsName x)
    (hfit : Disk.fits x) (hk : a.isKept x) {ts : List Text} (hts : ∀ t ∈ ts,
      Disk.IsName (a.fileName t) ∧ Disk.fits (a.fileName t) ∧
        ∃ content, a.disk.entries.get? [x, a.fileName t] = some (.file content)) :
    ∃ n, (Action.forEach (load x) ts).run a = (ts.mapM (a.fetch x), { a with loads := n }) := by
  induction ts generalizing a with
  | nil => exact ⟨a.loads, rfl⟩
  | cons t ts ih =>
    obtain ⟨hn, hf, content, hc⟩ := hts t (by simp)
    obtain ⟨n, hl⟩ := load_run hd hx hfit hk hn hf hc
    rw [Action.run_forEach_cons, List.mapM_cons, Action.run_bind, hl]
    cases a.fetch x t with
    | error e => exact ⟨n, rfl⟩
    | ok u =>
      obtain ⟨k, hk⟩ := ih (a := { a with loads := n }) hd hk fun t ht => hts t (by simp [ht])
      have hfetch : ({ a with loads := n } : Archive).fetch x = a.fetch x := rfl
      rw [hfetch] at hk
      refine ⟨k, ?_⟩
      simp only [Action.run_bind, hk]
      cases ts.mapM (a.fetch x) <;> rfl

/-! ## Writing -/

/-- What it takes to write a table of a name in whole. -/
structure Writable (a : Archive) (x t : Text) : Prop where
  directory : Disk.fits x ∧ a.isKept x
  temporary_fits : Disk.fits (a.temporaryName t)
  temporary_free : a.disk.entries.get? [x, a.temporaryName t] = none
  file_fits : Disk.fits (a.fileName t)
  file_free : a.disk.entries.get? [x, a.fileName t] ≠ some .directory

theorem Writable.congr {a a' : Archive} {x t : Text} (h : a.Writable x t)
    (hd : a'.disk = a.disk) (hs : a'.suffix = a.suffix) (ht : a'.stamp = a.stamp) :
    a'.Writable x t := by
  obtain ⟨hdir, htf, hfree, hff, hg⟩ := h
  rw [← fileName_congr hs] at hff hg
  rw [← temporaryName_congr ht] at htf hfree
  rw [isKept, ← hd] at hdir
  rw [← hd] at hfree hg
  exact ⟨hdir, htf, hfree, hff, hg⟩

/-- The archive with a table file. -/
def putFile (a : Archive) (x t : Text) (content : Bytes) : Archive :=
  { a with disk := a.disk.put [x, a.fileName t] (.file content) }

theorem write_run {d : Disk} (safe : Bool) {p : Path} (hr : d.Reaches p) {before content : Bytes}
    (he : d.entries.get? p = some (.file before))
    (hr' : (d.put p (.file (before ++ content))).Reaches p) :
    (write safe p content).run d = (.ok (), d.put p (.file (before ++ content))) := by
  rw [write, Action.run_bind_ok (hr.append_run he content)]
  cases safe with
  | true => exact hr'.sync_run
  | false => rfl

section Save

variable {a : Archive} {x : Text} {t : Table}

/-- The disk with the temporary file of a table in it. -/
def drafted (a : Archive) (x t : Text) (content : Bytes) : Disk :=
  a.disk.put [x, a.temporaryName t] (.file content)

theorem drafted_calm (hd : a.disk.Calm) (x t : Text) (content : Bytes) :
    (a.drafted x t content).Calm := hd.put _ (by simp)

theorem drafted_get?_one (a : Archive) (x t : Text) (content : Bytes) (y : Text) :
    (a.drafted x t content).entries.get? [y] = a.disk.entries.get? [y] := by
  rw [drafted, Disk.put_entries, OrderedMap.get?_put_other _ _ (by simp)]

/-- The temporary file is made, if its name is fit and free, and written. -/
theorem draft_run (ha : a.Plain) (hd : a.disk.Calm) (hx : Disk.IsName x)
    (ht : Disk.IsName (a.fileName t.name)) (hdir : Disk.fits x ∧ a.isKept x)
    (hfit : Disk.fits (a.temporaryName t.name))
    (hfree : a.disk.entries.get? [x, a.temporaryName t.name] = none) (content : Bytes) :
    (Disk.createFile [x, a.temporaryName t.name]).run a.disk = (.ok (), a.drafted x t.name []) ∧
    (write a.safe [x, a.temporaryName t.name] content).run (a.drafted x t.name []) =
      (.ok (), a.drafted x t.name content) ∧
    (a.drafted x t.name content).Reaches [x, a.temporaryName t.name] := by
  have hn := isName_temporaryName ha ht
  have hr : ∀ c, (a.drafted x t.name c).Reaches [x, a.temporaryName t.name] := fun c =>
    (drafted_calm hd x t.name c).reaches_two hx hdir.1
      (by rw [drafted_get?_one]; exact beq_iff_eq.1 hdir.2) hn hfit
  have hput : (a.drafted x t.name []).put [x, a.temporaryName t.name] (.file ([] ++ content)) =
      a.drafted x t.name content := by simp [drafted]
  refine ⟨?_, ?_, hr content⟩
  · exact (hd.reaches_two hx hdir.1 (beq_iff_eq.1 hdir.2) hn hfit).createFile_run hfree
  · rw [← hput]
    exact write_run a.safe (hr []) (by simp [drafted]) (by rw [hput]; exact hr content)

/-- The temporary file takes the place of the table's own, if it can. -/
theorem move_run (ha : a.Plain) (hd : a.disk.Calm) (hx : Disk.IsName x)
    (ht : Disk.IsName (a.fileName t.name)) (hw : a.Writable x t.name) (content : Bytes) :
    (Disk.rename [x, a.temporaryName t.name] [x, a.fileName t.name]).run
      (a.drafted x t.name content) = (.ok (), (a.putFile x t.name content).disk) := by
  have hr := (draft_run ha hd hx ht hw.directory hw.temporary_fits hw.temporary_free content).2.2
  have herase : (a.drafted x t.name content).erase [x, a.temporaryName t.name] = a.disk :=
    Disk.erase_put _ hw.temporary_free
  have hp : (a.drafted x t.name content).Reaches [x, a.fileName t.name] :=
    (drafted_calm hd x t.name _).reaches_two hx hw.directory.1
      (by rw [drafted_get?_one]; exact beq_iff_eq.1 hw.directory.2) ht hw.file_fits
  have hfree : (a.drafted x t.name content).entries.get? [x, a.fileName t.name] ≠
      some .directory := by
    rw [drafted, Disk.put_entries, OrderedMap.get?_put]
    split
    · simp
    · exact hw.file_free
  have hdraft : (a.drafted x t.name content).entries.get? [x, a.temporaryName t.name] =
      some (.file content) := by simp [drafted]
  have hren := hr.rename_run hp hdraft hfree
  rw [herase] at hren
  exact hren

/-- A table is written in whole if it can be: its file is all that changes. -/
theorem save_run (ha : a.Plain) (hd : a.disk.Calm) (hx : Disk.IsName x)
    (ht : Disk.IsName (a.fileName t.name)) (hw : a.Writable x t.name) :
    (save x t).run a = (.ok (), { a.putFile x t.name (Utf8.encode t.encode) with
      writes := a.writes.bump .whole }) := by
  obtain ⟨hc, hwr, -⟩ := draft_run ha hd hx ht hw.directory hw.temporary_fits hw.temporary_free
    (Utf8.encode t.encode)
  have hren := move_run ha hd hx ht hw (Utf8.encode t.encode)
  have hboth : (do write a.safe [x, a.temporaryName t.name] (Utf8.encode t.encode)
                   Disk.rename [x, a.temporaryName t.name] [x, a.fileName t.name] :
      Disk.Call Unit).run (a.drafted x t.name []) =
      (.ok (), (a.putFile x t.name (Utf8.encode t.encode)).disk) := by
    rw [Action.run_bind_ok hwr, hren]
  rw [save, Action.run_bind_ok (Action.run_look _ _)]
  simp only [id, temporaryPath_eq ha hx ht, a.tablePath_eq hx ht]
  rw [Action.run_bind_ok (onDisk_ok hc), Action.run_bind, Action.run_attempt, Action.run_within,
    hboth]
  rfl

/-- The temporary file is not made if its name is not fit or not free. -/
theorem draft_error (ha : a.Plain) (hd : a.disk.Calm) (hx : Disk.IsName x)
    (ht : Disk.IsName (a.fileName t.name)) (hn : ¬ ((Disk.fits x ∧ a.isKept x) ∧
      Disk.fits (a.temporaryName t.name) ∧
        a.disk.entries.get? [x, a.temporaryName t.name] = none)) :
    ∃ e, (Disk.createFile [x, a.temporaryName t.name]).run a.disk = (.error e, a.disk) := by
  have hname := isName_temporaryName ha ht
  have hnull : Path.hasNull [x, a.temporaryName t.name] = false :=
    Disk.hasNull_eq_false (by simp [hx, hname])
  have hfail : ∀ e, Disk.placeOf a.disk.entries [x, a.temporaryName t.name] = .error e →
      ∃ e, (Disk.createFile [x, a.temporaryName t.name]).run a.disk = (.error e, a.disk) := by
    intro e he
    refine ⟨_, Disk.call_run_error hd.unrefused hnull (e := e) ?_⟩
    simp only [Disk.vacancy, he, bind, Except.bind]
  by_cases hdir : Disk.fits x ∧ a.isKept x
  · have hdir' := beq_iff_eq.1 hdir.2
    cases hfit : Disk.fits (a.temporaryName t.name) with
    | false =>
      apply hfail .nameTooLong
      rw [Disk.placeOf_two hd.root hx hname hdir.1 hdir', hfit]
      rfl
    | true =>
      refine ⟨_, (hd.reaches_two hx hdir.1 hdir' hname hfit).createFile_error ?_⟩
      exact fun hfree => hn ⟨hdir, hfit, hfree⟩
  · obtain ⟨e, he⟩ := Disk.placeOf_two_eq_error (f := a.temporaryName t.name) hd.root hx
      fun h => hdir ⟨h.1, beq_iff_eq.2 h.2⟩
    exact hfail e he

/-- The temporary file cannot take the place of the table's file if that is not fit or not free. -/
theorem rename_blocked (hd : a.disk.Calm) (hx : Disk.IsName x)
    (ht : Disk.IsName (a.fileName t.name)) (hdir : Disk.fits x ∧ a.isKept x)
    (hfree : a.disk.entries.get? [x, a.temporaryName t.name] = none)
    (hn : ¬ (Disk.fits (a.fileName t.name) ∧
      a.disk.entries.get? [x, a.fileName t.name] ≠ some .directory)) (content : Bytes) :
    (∃ e, Disk.placeOf (a.drafted x t.name content).entries [x, a.fileName t.name] = .error e) ∨
      (Disk.placeOf (a.drafted x t.name content).entries [x, a.fileName t.name] =
          .ok [x, a.fileName t.name] ∧
        Disk.entryAt (a.drafted x t.name content).entries [x, a.fileName t.name] =
          some .directory) := by
  have hdir' : (a.drafted x t.name content).entries.get? [x] = some .directory := by
    rw [drafted_get?_one]
    exact beq_iff_eq.1 hdir.2
  have hplace := Disk.placeOf_two (drafted_calm hd x t.name content).root hx ht hdir.1 hdir'
  cases hf : Disk.fits (a.fileName t.name) with
  | false => exact .inl ⟨_, by rw [hplace, hf]; rfl⟩
  | true =>
    have hg : a.disk.entries.get? [x, a.fileName t.name] = some .directory := by
      by_contra hg
      exact hn ⟨hf, hg⟩
    have hne : [x, a.temporaryName t.name] ≠ [x, a.fileName t.name] := by
      intro he
      rw [he, hg] at hfree
      cases hfree
    refine .inr ⟨by rw [hplace, hf]; rfl, ?_⟩
    rw [Disk.entryAt_of_isName hx, drafted, Disk.put_entries, OrderedMap.get?_put_other _ _ hne]
    exact hg

/-- A table that cannot be written in whole leaves the archive as it was. -/
theorem save_error (ha : a.Plain) (hd : a.disk.Calm) (hx : Disk.IsName x)
    (ht : Disk.IsName (a.fileName t.name)) (hw : ¬ a.Writable x t.name) :
    ∃ f, (save x t).run a = (.error f, a) ∧ f.OfDisk := by
  by_cases hdraft : (Disk.fits x ∧ a.isKept x) ∧ Disk.fits (a.temporaryName t.name) ∧
      a.disk.entries.get? [x, a.temporaryName t.name] = none
  · obtain ⟨hdir, hfit, hfree⟩ := hdraft
    obtain ⟨hc, hwr, hr⟩ := draft_run ha hd hx ht hdir hfit hfree (Utf8.encode t.encode)
    have hblocked := rename_blocked hd hx ht hdir hfree
      (fun h => hw ⟨hdir, hfit, hfree, h.1, h.2⟩) (Utf8.encode t.encode)
    have hfile : (a.drafted x t.name (Utf8.encode t.encode)).entries.get?
        [x, a.temporaryName t.name] = some (.file (Utf8.encode t.encode)) := by simp [drafted]
    obtain ⟨e, hren⟩ := hr.rename_error (Disk.hasNull_eq_false (by simp [hx, ht])) hfile hblocked
    have hboth : (do write a.safe [x, a.temporaryName t.name] (Utf8.encode t.encode)
                     Disk.rename [x, a.temporaryName t.name] [x, a.fileName t.name] :
        Disk.Call Unit).run (a.drafted x t.name []) = _ := (Action.run_bind_ok hwr).trans hren
    have hun := hr.unlinkIfThere_file hfile
    have herase : (a.drafted x t.name (Utf8.encode t.encode)).erase [x, a.temporaryName t.name] =
        a.disk := Disk.erase_put _ hfree
    rw [herase] at hun
    refine ⟨.rejected (.storage (.writeFile (a.pathText [x, a.fileName t.name])
      (.refused e (a.pathText [x, a.temporaryName t.name])
        (some (a.pathText [x, a.fileName t.name]))))), ?_, trivial⟩
    rw [save, Action.run_bind_ok (Action.run_look _ _)]
    simp only [id, temporaryPath_eq ha hx ht, a.tablePath_eq hx ht]
    rw [Action.run_bind_ok (onDisk_ok hc), Action.run_bind, Action.run_attempt, Action.run_within,
      hboth]
    exact (Action.run_bind_ok (onDisk_ok (a := { a with
      disk := a.drafted x t.name (Utf8.encode t.encode) }) hun)).trans rfl
  · obtain ⟨e, hc⟩ := draft_error ha hd hx ht hdraft
    refine ⟨.system e, ?_, trivial⟩
    rw [save, Action.run_bind_ok (Action.run_look _ _)]
    simp only [id, temporaryPath_eq ha hx ht, a.tablePath_eq hx ht]
    exact Action.run_bind_error (onDisk_error hc)

end Save

/-- A row reaches the end of its table's file. -/
theorem appendRow_run {a : Archive} (hd : a.disk.Calm) {x : Text} (hx : Disk.IsName x)
    (hfit : Disk.fits x) (hk : a.isKept x) {t : Table} (ht : Disk.IsName (a.fileName t.name))
    (htfit : Disk.fits (a.fileName t.name)) {content : Bytes}
    (hc : a.disk.entries.get? [x, a.fileName t.name] = some (.file content)) (row : Row) :
    (appendRow x t row).run a =
      (.ok (), { a.putFile x t.name (content ++ Utf8.encode (Table.encodeRow row)) with
        writes := a.writes.bump .append }) := by
  have hdir := beq_iff_eq.1 hk
  have hr := hd.reaches_two hx hfit hdir ht htfit
  have hr' := (hd.put (p := [x, a.fileName t.name])
    (.file (content ++ Utf8.encode (Table.encodeRow row))) (by simp)).reaches_two hx hfit
      (by rw [Disk.put_entries, OrderedMap.get?_put_other _ _ (by simp)]; exact hdir) ht htfit
  have hwr := write_run a.safe hr hc hr'
  have hf : (onDisk (Disk.isFile [x, a.fileName t.name])).run a = (.ok true, a) :=
    onDisk_ok (hr.isFile_run hc)
  rw [appendRow, Action.run_bind_ok (Action.run_look _ _)]
  simp only [id, a.tablePath_eq hx ht]
  rw [Action.run_bind_ok hf, if_pos rfl, Action.run_bind_ok (stored_ok hwr)]
  rfl

/-- The archive without a table file. -/
def withoutFile (a : Archive) (x t : Text) : Archive :=
  { a with disk := a.disk.erase [x, a.fileName t] }

theorem deleteTable_run {a : Archive} (hd : a.disk.Calm) {x : Text} (hx : Disk.IsName x)
    (hfit : Disk.fits x) (hk : a.isKept x) {t : Text} (ht : Disk.IsName (a.fileName t))
    (htfit : Disk.fits (a.fileName t))
    (hc : a.disk.entries.get? [x, a.fileName t] ≠ some .directory) :
    (deleteTable x t).run a = (.ok (), a.withoutFile x t) := by
  have hr := hd.reaches_two hx hfit (beq_iff_eq.1 hk) ht htfit
  rw [deleteTable, Action.run_bind_ok (Action.run_look _ _),
    Action.run_bind_ok (Action.run_look _ _), a.tablePath_eq hx ht]
  cases hg : a.disk.entries.get? [x, a.fileName t] with
  | none =>
    have hsame : a.withoutFile x t = a := by
      rw [withoutFile, Disk.erase, OrderedMap.erase_of_get?_eq_none hg]
    rw [hsame]
    exact stored_ok (hr.unlinkIfThere_none hg)
  | some e =>
    cases e with
    | directory => exact absurd hg hc
    | file content => exact stored_ok (hr.unlinkIfThere_file hg)

theorem deleteTable_error {a : Archive} (hd : a.disk.Calm) {x : Text} (hx : Disk.IsName x)
    (hfit : Disk.fits x) (hk : a.isKept x) {t : Text} (ht : Disk.IsName (a.fileName t))
    (hn : ¬ (Disk.fits (a.fileName t) ∧
      a.disk.entries.get? [x, a.fileName t] ≠ some .directory)) :
    ∃ f, (deleteTable x t).run a = (.error f, a) ∧ f.OfDisk := by
  have hdir := beq_iff_eq.1 hk
  have hnull : Path.hasNull [x, a.fileName t] = false := Disk.hasNull_eq_false (by simp [hx, ht])
  have hun : ∃ e p q, (Disk.unlinkIfThere [x, a.fileName t]).run a.disk =
      (.error (.refused e p q), a.disk) := by
    cases hf : Disk.fits (a.fileName t) with
    | true =>
      have hg : a.disk.entries.get? [x, a.fileName t] = some .directory := by
        by_contra hg
        exact hn ⟨hf, hg⟩
      exact ⟨_, _, _, (hd.reaches_two hx hfit hdir ht hf).unlinkIfThere_directory hg⟩
    | false =>
      have hplace := Disk.placeOf_two hd.root hx ht hfit hdir
      rw [hf] at hplace
      have hu : (Disk.unlink [x, a.fileName t]).run a.disk =
          (.error (.refused .nameTooLong (Path.text a.disk.root [x, a.fileName t]) none), a.disk) := by
        apply Disk.call_run_error hd.unrefused hnull
        simp only [Disk.find, hplace, bind, Except.bind, Bool.false_eq_true, if_false]
      refine ⟨.nameTooLong, Path.text a.disk.root [x, a.fileName t], none, ?_⟩
      rw [Disk.unlinkIfThere, Action.run_orElse, hu]
      rfl
  obtain ⟨e, p, q, hun⟩ := hun
  refine ⟨.rejected (.storage (.removeFile (a.pathText [x, a.fileName t]) (.refused e p q))), ?_,
    trivial⟩
  rw [deleteTable, Action.run_bind_ok (Action.run_look _ _),
    Action.run_bind_ok (Action.run_look _ _), a.tablePath_eq hx ht]
  exact stored_error hun

end Tabular.Archive
