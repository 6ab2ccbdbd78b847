import Tabular.Proofs.Engine.Events

/-!
# Chronicles

A chronicle follows an engine from an empty disk through events and remembers which databases were
created and not dropped, and what each database was, on which disk, when it was last resident. The
disk always holds exactly those databases, and a new engine over it finds them again.
-/

namespace Tabular

structure Chronicle where
  engine : Engine
  standing : List Text
  seen : Text → Option (Database × Disk)

namespace Chronicle

/-- A chronicle that begins with a new engine over an empty disk. -/
def begin (options : Engine.Options) (root : Text) : Chronicle :=
  ⟨Engine.start options (Disk.empty root), [], fun _ => none⟩

/-- What is seen of a database: as it is, if it is resident, and else as it was. -/
def watch (seen : Text → Option (Database × Disk)) (e : Engine) (x : Text) :
    Option (Database × Disk) :=
  match e.catalog.resident.get? x with
  | some d => some (d, e.disk)
  | none => seen x

def next (c : Chronicle) (v : Event) : Chronicle :=
  ⟨c.engine.after v, c.engine.standing c.standing v, watch c.seen (c.engine.after v)⟩

def afterAll (c : Chronicle) (vs : List Event) : Chronicle := vs.foldl next c

/-- The book agrees with what the chronicle remembers, and no file has changed since. -/
structure Kept (c : Chronicle) (book : Book) : Prop where
  written : c.engine.catalog.Written book
  chosen : c.engine.Chosen
  covers : book.Covers c.standing
  seen : ∀ x d, book x = some d → ∃ disk, c.seen x = some (d, disk) ∧
    ∀ p, c.engine.disk.entries.get? (x :: p) = disk.entries.get? (x :: p)

end Chronicle

/-- The page of a database says what is in its directory. -/
theorem Archive.Holds.get?_eq {a a' : Archive} {book book' : Book} (h : a.Holds book)
    (h' : a'.Holds book') (hs : a'.suffix = a.suffix) {x : Text} (hx : book' x = book x)
    (p : Path) : a'.disk.entries.get? (x :: p) = a.disk.entries.get? (x :: p) := by
  match p with
  | [] => rw [h.directories, h'.directories, hx]
  | [f] =>
    rw [h.files, h'.files, hx]
    unfold fileOf
    rw [hs]
  | f :: g :: p => rw [h.nothing, h'.nothing]

theorem Archive.Holds.get?_eq_none {a : Archive} {book : Book} (h : a.Holds book) {x : Text}
    (hx : book x = none) (p : Path) : a.disk.entries.get? (x :: p) = none := by
  match p with
  | [] => rw [h.directories, hx]; rfl
  | [f] => rw [h.files, hx]; rfl
  | f :: g :: p => exact h.nothing x f g p

namespace Chronicle

variable {c : Chronicle} {book : Book}

theorem begin_kept {options : Engine.Options} (root : Text) (h : options.Plain) :
    (begin options root).Kept fun _ => none where
  written := by
    refine ⟨⟨h.1, h.2, h.3⟩, ⟨⟨rfl, rfl⟩, ?_, ?_, ?_, fun x d hx => by cases hx⟩, fun x d hx => by cases hx⟩
    · intro x
      rfl
    · intro x f
      rfl
    · intro x f g p
      rfl
  chosen := by
    intro id x hx
    simp only [begin, Engine.selection, Engine.start, OrderedMap.get?_put] at hx
    split at hx <;> cases hx
  covers := fun x => by simp [begin]
  seen := fun x d hx => by cases hx

/-- One event keeps a chronicle with a later book. -/
theorem Kept.next (h : c.Kept book) (v : Event) : ∃ book', (c.next v).Kept book' := by
  obtain ⟨book', hc, hl, hs⟩ := Engine.after_leads h.written h.chosen h.covers v
  refine ⟨book', hl.written, hc, hs, ?_⟩
  intro x d hx
  cases hr : (c.engine.after v).catalog.resident.get? x with
  | some d' =>
    have hd : d' = d := Option.some.inj ((hl.written.resident x d' hr).symm.trans hx)
    refine ⟨(c.engine.after v).disk, ?_, fun _ => rfl⟩
    simp only [Chronicle.next, watch, hr, hd]
  | none =>
    have hsame := hl.unchanged x hr (by rw [hx]; rfl)
    obtain ⟨disk, hseen, hp⟩ := h.seen x d (hsame ▸ hx)
    refine ⟨disk, ?_, fun p => ?_⟩
    · simp only [Chronicle.next, watch, hr]
      exact hseen
    · rw [← hp p]
      exact h.written.holds.get?_eq hl.written.holds hl.suffix hsame p

theorem Kept.afterAll (h : c.Kept book) (vs : List Event) : ∃ book', (c.afterAll vs).Kept book' := by
  induction vs generalizing c book with
  | nil => exact ⟨book, h⟩
  | cons v vs ih =>
    obtain ⟨book', h'⟩ := h.next v
    exact ih h'

/-! ## What a chronicle tells -/

/-- The files of a database are one for each table, with the table written out in it. -/
def FilesAre (e : Engine) (x : Text) (d : Database) : Prop :=
  (∀ k t, d.tables.get? k = some t → t.name = k) ∧
    ∀ f p entry, e.disk.entries.get? (x :: f :: p) = some entry ↔
      ∃ t, d.tables.get? t.name = some t ∧ f = t.name ++ e.catalog.archive.suffix ∧ p = [] ∧
        entry = .file (Utf8.encode t.encode)

/-- A command to use the database succeeds in every session and makes a database resident that
agrees with this one. -/
def Loads (e : Engine) (x : Text) (d : Database) : Prop :=
  ∀ command id sess, Statement.ofCommand command = .ok (.use x) → e.session id = .ok sess →
    (e.execute command id).1.success ∧
      ∃ d', (e.execute command id).2.catalog.resident.get? x = some d' ∧ d'.Agrees d

/-- The disk holds what was created and not dropped: of the resident databases what they are, and
of the others what they were. A database is found as it was, by this engine and by a new one. -/
structure WrittenThrough (c : Chronicle) : Prop where
  directories : ∀ x entry, c.engine.disk.entries.get? [x] = some entry ↔
    entry = .directory ∧ x ∈ c.standing
  nothingElse : ∀ x p entry, c.engine.disk.entries.get? (x :: p) = some entry → x ∈ c.standing
  resident : ∀ x d, c.engine.catalog.resident.get? x = some d →
    x ∈ c.standing ∧ FilesAre c.engine x d
  seen : ∀ x ∈ c.standing, ∃ d disk, c.seen x = some (d, disk) ∧
    (∀ p, c.engine.disk.entries.get? (x :: p) = disk.entries.get? (x :: p)) ∧
    Loads c.engine x d ∧ Loads c.engine.restart x d

theorem Kept.filesAre (h : c.Kept book) {x : Text} {d : Database} (hx : book x = some d) :
    FilesAre c.engine x d := by
  have hw := h.written
  have hk := hw.holds.databases x d hx
  refine ⟨fun k t ht => (hk.table_name k t ht).1, ?_⟩
  intro f p entry
  cases p with
  | cons g p =>
    have hnone : c.engine.disk.entries.get? (x :: f :: g :: p) = none := hw.holds.nothing x f g p
    simp [hnone]
  | nil =>
    have hfile : c.engine.disk.entries.get? [x, f] = c.engine.catalog.archive.fileOf d f :=
      (hw.holds.files x f).trans (by rw [hx]; rfl)
    rw [hfile]
    constructor
    · intro he
      obtain ⟨k, ho, he⟩ := Option.bind_eq_some_iff.1 he
      obtain ⟨t, ht, rfl⟩ := Option.map_eq_some_iff.1 he
      have hname := (hk.table_name k t ht).1
      refine ⟨t, hname ▸ ht, ?_, rfl, rfl⟩
      rw [hname]
      exact (Archive.tableOf?_eq_some_iff hw.plain.suffix_ne).1 ho
    · rintro ⟨t, ht, rfl, -, rfl⟩
      have hf := Archive.fileOf_fileName hw.plain d t.name
      rw [ht] at hf
      exact hf

theorem loads_of_written {e : Engine} (h : e.catalog.Written book) {x : Text} {d : Database}
    (hx : book x = some d) : Loads e x d := by
  intro command id sess hc hid
  obtain ⟨d', hfound, hd⟩ := h.found_eq_ok hx
  obtain ⟨c, book', hrun, -, hres⟩ := h.follows_use (h.holds.databases x d hx).word
  have hex := Engine.execute_run hid hc (Engine.perform_use_run _ hrun)
  rw [hex, hfound]
  refine ⟨rfl, d', ?_, hd⟩
  simp only [Except.map, Engine.onSuccess, Engine.record_catalog, Engine.withSession_catalog]
  exact hres d' hfound

theorem Kept.writtenThrough (h : c.Kept book) : c.WrittenThrough where
  directories := by
    intro x entry
    have hd : c.engine.disk.entries.get? [x] = (book x).map fun _ => .directory :=
      h.written.holds.directories x
    rw [← h.covers x, hd]
    cases book x <;> simp [eq_comm]
  nothingElse := by
    intro x p entry hp
    rw [← h.covers x]
    by_contra hx
    have hnone := h.written.holds.get?_eq_none (Option.not_isSome_iff_eq_none.1 hx) p
    cases hnone.symm.trans hp
  resident := by
    intro x d hx
    have hb := h.written.resident x d hx
    exact ⟨(h.covers x).1 (by rw [hb]; rfl), h.filesAre hb⟩
  seen := by
    intro x hx
    obtain ⟨d, hb⟩ := Option.isSome_iff_exists.1 ((h.covers x).2 hx)
    obtain ⟨disk, hseen, hp⟩ := h.seen x d hb
    exact ⟨d, disk, hseen, hp, loads_of_written h.written hb,
      loads_of_written (Engine.restart_written h.written) hb⟩

/-- Whatever happens to an engine that began on an empty disk, its disk holds all of its work. -/
theorem afterAll_writtenThrough {options : Engine.Options} (h : options.Plain) (root : Text)
    (vs : List Event) : ((begin options root).afterAll vs).WrittenThrough := by
  obtain ⟨book, hk⟩ := (begin_kept root h).afterAll vs
  exact hk.writtenThrough

theorem writtenThrough_of_inserted_row :
    let c := (begin ⟨".tab".toList, false, .append, ['1']⟩ ['r']).afterAll
      [.command "CREATE DATABASE d;".toList none, .command "USE d;".toList none,
        .command "CREATE TABLE t (a);".toList none, .command "INSERT INTO t VALUES ('x');".toList none,
        .restart]
    c.standing = [['d']] ∧ c.WrittenThrough :=
  ⟨by decide +kernel,
    afterAll_writtenThrough ⟨by decide +kernel, by decide +kernel, by decide +kernel⟩ ['r'] _⟩

end Chronicle

end Tabular
