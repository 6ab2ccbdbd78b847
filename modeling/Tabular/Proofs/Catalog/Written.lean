import Mathlib.Logic.Function.Basic
import Tabular.Proofs.Catalog.Tables
import Tabular.Proofs.Statement.Names
import Tabular.Proofs.Table.Operations

/-!
# Catalogs that are written through

A book says for each name what its database is. A catalog is written through with a book if the
disk holds exactly the directories and files of the databases in the book, and those that are
resident are as the book says. Each piece of work keeps it so, with a book that differs only in
what has become of a resident database.
-/

namespace Tabular

/-- The databases by their names. -/
abbrev Book := Text → Option Database

/-- The table with the next id that loading gives it. -/
def Table.reloaded (t : Table) : Table := { t with nextId := followingId t.rows }

/-- What a table shows of itself: everything but its next id. -/
def Table.content (t : Table) : Text × List Text × List Row := (t.name, t.columns, t.rows)

/-- Two databases whose tables show the same. -/
def Database.Agrees (d d' : Database) : Prop :=
  d.name = d'.name ∧
    ∀ k, (d.tables.get? k).map Table.content = (d'.tables.get? k).map Table.content

theorem Table.Sound.reloaded {t : Table} (h : t.Sound) : t.reloaded.Sound :=
  { h with
    ids_below := fun _ hr => rowId_lt_followingId hr
    next_pos := Nat.succ_pos _ }

namespace Archive

/-- A database whose tables are sound and found by their names, which are words that fit. -/
structure Keeps (a : Archive) (x : Text) (d : Database) : Prop where
  word : Name.IsWord x
  fits : Disk.fits x
  name : d.name = x
  table_name : ∀ k t, d.tables.get? k = some t → t.name = k ∧ Name.IsWord k
  table_sound : ∀ k t, d.tables.get? k = some t → t.Sound
  table_fits : ∀ k t, d.tables.get? k = some t →
    Disk.fits (a.fileName k) ∧ Disk.fits (a.temporaryName k)

/-- What stands at a place below the directory of a database. -/
def fileOf (a : Archive) (d : Database) (f : Text) : Option Entry :=
  (tableOf? a.suffix f).bind fun k => (d.tables.get? k).map fun t => .file (Utf8.encode t.encode)

/-- Only the names of its files tie a database to an archive. -/
theorem Keeps.congr {a a' : Archive} {x : Text} {d : Database} (h : a.Keeps x d)
    (hs : a'.suffix = a.suffix) (ht : a'.stamp = a.stamp) : a'.Keeps x d :=
  { h with
    table_fits := by simpa only [fileName, temporaryName, hs, ht] using h.table_fits }

/-- A disk that holds the databases of a book and nothing else. -/
structure Holds (a : Archive) (book : Book) : Prop where
  calm : a.disk.Calm
  directories : ∀ x, a.disk.entries.get? [x] = (book x).map fun _ => .directory
  files : ∀ x f, a.disk.entries.get? [x, f] = (book x).bind fun d => a.fileOf d f
  nothing : ∀ x f g p, a.disk.entries.get? (x :: f :: g :: p) = none
  databases : ∀ x d, book x = some d → a.Keeps x d

theorem Holds.congr {a a' : Archive} {book : Book} (h : a.Holds book) (hd : a'.disk = a.disk)
    (hs : a'.suffix = a.suffix) (ht : a'.stamp = a.stamp) : a'.Holds book where
  calm := by rw [hd]; exact h.calm
  directories := by rw [hd]; exact h.directories
  files := by simpa only [hd, fileOf, hs] using h.files
  nothing := by rw [hd]; exact h.nothing
  databases := fun x d hx => (h.databases x d hx).congr hs ht

end Archive

namespace Catalog

/-- A catalog whose disk holds a book that the resident databases agree with. -/
structure Written (c : Catalog) (book : Book) : Prop where
  plain : c.archive.Plain
  holds : c.archive.Holds book
  resident : ∀ x d, c.resident.get? x = some d → book x = some d

/-- From one catalog and book to later ones: the book is about the same databases, and where it
says something new, the database is resident. -/
structure Follows (c : Catalog) (book : Book) (c' : Catalog) (book' : Book) : Prop where
  written : c'.Written book'
  suffix : c'.archive.suffix = c.archive.suffix
  standing : ∀ x, (book' x).isSome = (book x).isSome
  unchanged : ∀ x, c'.resident.get? x = none → book' x = book x
  stays : ∀ x, c.resident.has x → c'.resident.has x

theorem Follows.refl {c : Catalog} {book : Book} (h : c.Written book) : c.Follows book c book :=
  ⟨h, rfl, fun _ => rfl, fun _ _ => rfl, fun _ h => h⟩

theorem Follows.trans {c c' c'' : Catalog} {b b' b'' : Book} (h : c.Follows b c' b')
    (h' : c'.Follows b' c'' b'') : c.Follows b c'' b'' := by
  refine ⟨h'.written, h'.suffix.trans h.suffix, fun x => (h'.standing x).trans (h.standing x), ?_,
    fun x hx => h'.stays x (h.stays x hx)⟩
  intro x hx
  have hx' : c'.resident.get? x = none := by
    by_contra hne
    have hs := h'.stays x (Option.isSome_iff_ne_none.2 hne)
    rw [OrderedMap.has, hx] at hs
    cases hs
  rw [h'.unchanged x hx, h.unchanged x hx']

end Catalog

namespace Archive

variable {a : Archive} {book : Book}

/-! ## What the disk holds -/

theorem Holds.isKept_iff (h : a.Holds book) {x : Text} : a.isKept x ↔ (book x).isSome := by
  rw [isKept, h.directories x]
  cases book x <;> simp

theorem fileOf_fileName (ha : a.Plain) (d : Database) (k : Text) :
    a.fileOf d (a.fileName k) =
      (d.tables.get? k).map fun t => .file (Utf8.encode t.encode) := by
  have hk : tableOf? a.suffix (a.fileName k) = some k :=
    (tableOf?_eq_some_iff ha.suffix_ne).2 rfl
  rw [fileOf, hk]
  rfl

theorem fileOf_of_ne (ha : a.Plain) (d : Database) {f : Text} (hf : ∀ k, f ≠ a.fileName k) :
    a.fileOf d f = none := by
  have hk : tableOf? a.suffix f = none := by
    by_contra hne
    obtain ⟨k, hk⟩ := Option.ne_none_iff_exists'.1 hne
    exact hf k ((tableOf?_eq_some_iff ha.suffix_ne).1 hk)
  rw [fileOf, hk]
  rfl

/-- The tables of a database are those that have a file. -/
theorem Holds.get?_fileName (h : a.Holds book) (ha : a.Plain) {x : Text} {d : Database}
    (hx : book x = some d) (t : Text) :
    a.disk.entries.get? [x, a.fileName t] =
      (d.tables.get? t).map fun t => .file (Utf8.encode t.encode) := by
  rw [h.files, hx, Option.bind_some, fileOf_fileName ha]

/-- No file's name begins with a point. -/
theorem Holds.get?_temporaryName (h : a.Holds book) (ha : a.Plain) (x t : Text) :
    a.disk.entries.get? [x, a.temporaryName t] = none := by
  rw [h.files]
  cases hb : book x with
  | none => rfl
  | some d =>
    simp only [Option.bind_some, fileOf]
    cases ho : tableOf? a.suffix (a.temporaryName t) with
    | none => rfl
    | some k =>
      cases hk : d.tables.get? k with
      | none => simp [hk]
      | some u =>
        obtain ⟨c, rest, hw, hc⟩ := ((h.databases x d hb).table_name k u hk).2.head
        have he : a.temporaryName t = k ++ a.suffix := (tableOf?_eq_some_iff ha.suffix_ne).1 ho
        rw [hw] at he
        have hdot : '.' = c := (List.cons.inj he).1
        rw [← hdot] at hc
        exact absurd hc (by decide)

theorem Holds.proper (h : a.Holds book) (ha : a.Plain) : a.disk.Proper where
  toCalm := h.calm
  names := by
    intro p e hp
    match p with
    | [] => simp
    | [x] =>
      cases hb : book x with
      | none => rw [h.directories, hb] at hp; cases hp
      | some d =>
        have hk := h.databases x d hb
        simpa using ⟨hk.word.isName, hk.fits⟩
    | [x, f] =>
      rw [h.files] at hp
      obtain ⟨d, hb, hp⟩ := Option.bind_eq_some_iff.1 hp
      obtain ⟨k, ho, hp⟩ := Option.bind_eq_some_iff.1 hp
      obtain ⟨t, ht, -⟩ := Option.map_eq_some_iff.1 hp
      have hk := h.databases x d hb
      have hf : f = a.fileName k := (tableOf?_eq_some_iff ha.suffix_ne).1 ho
      have hn := ha.isName_fileName (hk.table_name k t ht).2
      have hfit := (hk.table_fits k t ht).1
      rw [hf]
      simpa using ⟨⟨hk.word.isName, hk.fits⟩, hn, hfit⟩
    | x :: f :: g :: p => rw [h.nothing] at hp; cases hp

/-! ## What becomes of it -/

theorem get?_replace {d : Database} {t : Table} {k : Text} (ht : Name.IsWord t.name) :
    (d.replace t).tables.get? k = if t.name = k then some t else d.tables.get? k := by
  rw [Database.replace, OrderedMap.get?_put, ht.small]

theorem get?_drop {d : Database} {t k : Text} (ht : Name.IsWord t) :
    (d.drop t).tables.get? k = if t = k then none else d.tables.get? k := by
  rw [Database.drop, OrderedMap.get?_erase, ht.small]

/-- A database with one more table, or with another table of the same name. -/
theorem Keeps.replace {x : Text} {d : Database} (h : a.Keeps x d) {t : Table}
    (hw : Name.IsWord t.name) (hs : t.Sound)
    (hf : Disk.fits (a.fileName t.name) ∧ Disk.fits (a.temporaryName t.name)) :
    a.Keeps x (d.replace t) where
  word := h.word
  fits := h.fits
  name := h.name
  table_name := by
    intro k u hu
    rw [get?_replace hw] at hu
    split at hu
    · next he => cases hu; exact ⟨he, he ▸ hw⟩
    · exact h.table_name k u hu
  table_sound := by
    intro k u hu
    rw [get?_replace hw] at hu
    split at hu
    · cases hu; exact hs
    · exact h.table_sound k u hu
  table_fits := by
    intro k u hu
    rw [get?_replace hw] at hu
    split at hu
    · next he => exact he ▸ hf
    · exact h.table_fits k u hu

theorem Keeps.drop {x : Text} {d : Database} (h : a.Keeps x d) {t : Text} (ht : Name.IsWord t) :
    a.Keeps x (d.drop t) := by
  have hget : ∀ k u, (d.drop t).tables.get? k = some u → d.tables.get? k = some u := by
    intro k u hu
    rw [get?_drop ht] at hu
    split at hu
    · cases hu
    · exact hu
  exact ⟨h.word, h.fits, h.name, fun k u hu => h.table_name k u (hget k u hu),
    fun k u hu => h.table_sound k u (hget k u hu), fun k u hu => h.table_fits k u (hget k u hu)⟩

theorem keeps_empty {x : Text} (hx : Name.IsWord x) (hf : Disk.fits x) :
    a.Keeps x (Database.empty x) := by
  refine ⟨hx, hf, rfl, ?_, ?_, ?_⟩ <;> intro k t ht <;> cases ht

/-- Files of one database change, and its directory stays. -/
theorem Holds.of_files (h : a.Holds book) {x : Text} {d d' : Database} (hx : book x = some d)
    {disk : Disk} (hc : disk.Calm) (hd : a.Keeps x d')
    (hother : ∀ p, (∀ f, p ≠ [x, f]) → disk.entries.get? p = a.disk.entries.get? p)
    (hfiles : ∀ f, disk.entries.get? [x, f] = a.fileOf d' f) :
    ({ a with disk := disk } : Archive).Holds (Function.update book x (some d')) where
  calm := hc
  directories := by
    intro y
    rw [hother [y] (by simp), h.directories]
    by_cases hy : y = x
    · subst hy
      simp [hx]
    · rw [Function.update_of_ne hy]
  files := by
    intro y f
    by_cases hy : y = x
    · subst hy
      rw [Function.update_self]
      exact hfiles f
    · rw [Function.update_of_ne hy, hother [y, f] (by intro g he; exact hy (List.cons.inj he).1)]
      exact h.files y f
  nothing := by
    intro y f g p
    rw [hother _ (by simp)]
    exact h.nothing y f g p
  databases := by
    intro y e hy
    by_cases hyx : y = x
    · subst hyx
      rw [Function.update_self] at hy
      cases hy
      exact hd.congr rfl rfl
    · rw [Function.update_of_ne hyx] at hy
      exact (h.databases y e hy).congr rfl rfl

/-- One file of a database changes, and the table that is in it. -/
theorem Holds.of_file (h : a.Holds book) (ha : a.Plain) {x : Text} {d d' : Database}
    (hx : book x = some d) (hd : a.Keeps x d') {disk : Disk} (hc : disk.Calm) {t : Text}
    {u : Option Table} (hget : ∀ k, d'.tables.get? k = if t = k then u else d.tables.get? k)
    (hdisk : ∀ p, disk.entries.get? p = if [x, a.fileName t] = p
      then u.map fun u => .file (Utf8.encode u.encode) else a.disk.entries.get? p) :
    ({ a with disk := disk } : Archive).Holds (Function.update book x (some d')) := by
  refine h.of_files hx hc hd (fun p hp => ?_) fun f => ?_
  · rw [hdisk, if_neg (Ne.symm (hp _))]
  · rw [hdisk, h.files, hx, Option.bind_some]
    by_cases hf : ∃ k, f = a.fileName k
    · obtain ⟨k, rfl⟩ := hf
      rw [fileOf_fileName ha, fileOf_fileName ha, hget]
      by_cases hk : t = k
      · rw [hk, if_pos rfl, if_pos rfl]
      · have hne : [x, a.fileName t] ≠ [x, a.fileName k] := fun he =>
          hk (fileName_injective (List.cons.inj (List.cons.inj he).2).1)
        rw [if_neg hne, if_neg hk]
    · have hn : ∀ k, f ≠ a.fileName k := fun k hk => hf ⟨k, hk⟩
      have hne : [x, a.fileName t] ≠ [x, f] := fun he =>
        hn _ (List.cons.inj (List.cons.inj he).2).1.symm
      rw [if_neg hne, fileOf_of_ne ha _ hn, fileOf_of_ne ha _ hn]

/-- A table is written. -/
theorem Holds.putFile (h : a.Holds book) (ha : a.Plain) {x : Text} {d : Database}
    (hx : book x = some d) {t : Table} (hw : Name.IsWord t.name) (hs : t.Sound)
    (hf : Disk.fits (a.fileName t.name) ∧ Disk.fits (a.temporaryName t.name)) :
    (a.putFile x t.name (Utf8.encode t.encode)).Holds
      (Function.update book x (some (d.replace t))) :=
  h.of_file ha hx ((h.databases x d hx).replace hw hs hf) (h.calm.put _ (by simp))
    (fun _ => get?_replace hw) fun _ => OrderedMap.get?_put ..

/-- A table's file is removed. -/
theorem Holds.withoutFile (h : a.Holds book) (ha : a.Plain) {x : Text} {d : Database}
    (hx : book x = some d) {t : Text} (ht : Name.IsWord t) :
    (a.withoutFile x t).Holds (Function.update book x (some (d.drop t))) :=
  h.of_file ha hx ((h.databases x d hx).drop ht) (h.calm.erase (by simp))
    (fun _ => get?_drop ht) fun _ => OrderedMap.get?_erase ..

/-- A database is loaded: no file changes. -/
theorem Holds.reload (h : a.Holds book) {x : Text} {d d' : Database}
    (hx : book x = some d) (hn : d'.name = x)
    (hd : ∀ k, d'.tables.get? k = (d.tables.get? k).map Table.reloaded) :
    a.Holds (Function.update book x (some d')) := by
  have hk := h.databases x d hx
  have hget : ∀ k t, d'.tables.get? k = some t → ∃ u, d.tables.get? k = some u ∧ u.reloaded = t := by
    intro k t ht
    rw [hd] at ht
    exact Option.map_eq_some_iff.1 ht
  have hkeeps : a.Keeps x d' := by
    refine ⟨hk.word, hk.fits, hn, ?_, ?_, ?_⟩
    · intro k t ht
      obtain ⟨u, hu, rfl⟩ := hget k t ht
      exact hk.table_name k u hu
    · intro k t ht
      obtain ⟨u, hu, rfl⟩ := hget k t ht
      exact (hk.table_sound k u hu).reloaded
    · intro k t ht
      obtain ⟨u, hu, rfl⟩ := hget k t ht
      exact hk.table_fits k u hu
  refine h.of_files hx h.calm hkeeps (fun _ _ => rfl) ?_
  intro f
  rw [h.files, hx, Option.bind_some, fileOf, fileOf]
  cases tableOf? a.suffix f with
  | none => rfl
  | some k =>
    rw [Option.bind_some, Option.bind_some, hd, Option.map_map]
    rfl

/-- A database is created. -/
theorem Holds.create (h : a.Holds book) {x : Text} (hx : book x = none) (hw : Name.IsWord x)
    (hf : Disk.fits x) :
    ({ a with disk := a.disk.put [x] .directory } : Archive).Holds
      (Function.update book x (some (Database.empty x))) where
  calm := h.calm.put _ (by simp)
  directories := by
    intro y
    rw [Disk.put_entries, OrderedMap.get?_put, h.directories]
    by_cases hy : x = y
    · subst hy
      simp
    · rw [Function.update_of_ne (Ne.symm hy), if_neg (by simpa using hy)]
  files := by
    intro y f
    rw [Disk.put_entries, OrderedMap.get?_put_other _ _ (by simp), h.files]
    by_cases hy : y = x
    · subst hy
      rw [hx, Function.update_self]
      have hnone : ∀ k, (Database.empty y).tables.get? k = none := fun _ => rfl
      simp [fileOf, hnone]
    · rw [Function.update_of_ne hy]
      rfl
  nothing := by
    intro y f g p
    rw [Disk.put_entries, OrderedMap.get?_put_other _ _ (by simp)]
    exact h.nothing y f g p
  databases := by
    intro y e hy
    by_cases hyx : y = x
    · subst hyx
      rw [Function.update_self] at hy
      cases hy
      exact keeps_empty hw hf
    · rw [Function.update_of_ne hyx] at hy
      exact (h.databases y e hy).congr rfl rfl

/-- A database is dropped. -/
theorem Holds.drop (h : a.Holds book) (x : Text) :
    ({ a with disk := a.disk.cut [x] } : Archive).Holds (Function.update book x none) where
  calm := h.calm.cut (by simp)
  directories := by
    intro y
    rw [Disk.get?_cut_cons, h.directories]
    by_cases hy : x = y
    · subst hy
      simp
    · rw [Function.update_of_ne (Ne.symm hy), if_neg hy]
  files := by
    intro y f
    rw [Disk.get?_cut_cons, h.files]
    by_cases hy : x = y
    · subst hy
      simp
    · rw [Function.update_of_ne (Ne.symm hy), if_neg hy]
      rfl
  nothing := by
    intro y f g p
    rw [Disk.get?_cut_cons, h.nothing, ite_self]
  databases := by
    intro y e hy
    by_cases hyx : y = x
    · subst hyx
      rw [Function.update_self] at hy
      cases hy
    · rw [Function.update_of_ne hyx] at hy
      exact (h.databases y e hy).congr rfl rfl

end Archive

end Tabular
