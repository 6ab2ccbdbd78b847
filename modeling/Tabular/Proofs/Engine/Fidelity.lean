import Tabular.Proofs.Catalog.Rows
import Tabular.Proofs.Engine.Reserved
import Tabular.Proofs.Engine.Schema
import Tabular.Proofs.Engine.Selections
import Tabular.Proofs.Statement.Composed
import Tabular.Proofs.Table.Shown

/-!
# Texts of rows

A row whose texts are quoted in an `INSERT` is shown with just these texts, by every engine that comes
after it on the disk, as long as nothing changes or removes the row.
-/

namespace Tabular

namespace Engine

variable {e : Engine} {x t command : Text} {u : Table} {row : Row} {v : Event} {vs : List Event}
  {key : Option Text}

/-- Does the event change or remove the row of an id, or change or drop its table? -/
def strikes (e : Engine) (x t : Text) (n : Nat) (v : Event) : Bool :=
  e.drops x t v ||
    match e.carried? v with
    | some (y, s) => y = some x && s.table? = some t && (e.table? x t).any fun u => s.strikes u n
    | none => false

/-- No event of a run strikes the row. -/
def leaves (e : Engine) (x t : Text) (n : Nat) : List Event → Bool
  | [] => true
  | v :: vs => !e.strikes x t n v && (e.after v).leaves x t n vs

/-- In every session that has the database selected, `SELECT * FROM t;` shows these fields, and no
others that begin as they do. -/
def Shows (e : Engine) (x t : Text) (fields : List Text) : Prop :=
  ∀ key : Option Text, e.selection (key.getD defaultId) = some x →
    ∃ header rows, Text.pieces '\n' (e.handle (Statement.selectCommand t) key).1 =
        Outcome.okTag :: header :: rows ∧
      (rows.map (Text.pieces '\t')).filter (fun shown => shown.head? = fields.head?) = [fields]

/-- An engine that comes of a run over a disk that began empty. -/
def Grown (e : Engine) : Prop :=
  ∃ (o : Options) (root : Text) (vs : List Event),
    o.Plain ∧ e = (start o (Disk.empty root)).afterAll vs

theorem Grown.afterAll (h : e.Grown) (vs : List Event) : (e.afterAll vs).Grown := by
  obtain ⟨o, root, us, ho, rfl⟩ := h
  exact ⟨o, root, us ++ vs, ho, List.foldl_append.symm⟩

theorem Grown.after (h : e.Grown) (v : Event) : (e.after v).Grown := h.afterAll [v]

theorem Grown.steady (h : e.Grown) : e.Steady := by
  obtain ⟨o, root, vs, ho, rfl⟩ := h
  exact (start_steady_of_proper ho (Disk.empty_proper root)).afterAll vs

theorem Grown.unreserved (h : e.Grown) : e.Unreserved := by
  obtain ⟨o, root, vs, ho, rfl⟩ := h
  exact afterAll_unreserved ho root vs

theorem Grown.exists_written (h : e.Grown) : ∃ book, e.catalog.Written book := by
  obtain ⟨o, root, vs, ho, rfl⟩ := h
  obtain ⟨book, hkept⟩ := (Chronicle.begin_kept root ho).afterAll vs
  have hw := hkept.written
  rw [afterAll_engine] at hw
  exact ⟨book, hw⟩

/-! ## What is shown -/

theorem exists_session (hsel : e.selection (key.getD defaultId) = some x) :
    ∃ sess, e.session key = .ok sess := by
  obtain ⟨sess, hget, -⟩ := Option.bind_eq_some_iff.1 hsel
  exact ⟨sess, session_eq_ok_iff.2 hget⟩

/-- The outcome of a command is that of its statement. -/
theorem execute_eq_of_run {s : Statement} {sess : Session} (hid : e.session key = .ok sess)
    (hread : Statement.ofCommand command = .ok s) :
    (e.execute command key).1 = ⟨s.label, ((perform (key.getD defaultId) s).run e).1⟩ := by
  cases hrun : (perform (key.getD defaultId) s).run e with
  | mk r e' => rw [execute_run hid hread hrun]

/-- Resident tables of a grown engine are named by words that are no keywords. -/
theorem Grown.word (h : e.Grown) (hu : e.table? x t = some u) :
    Name.IsWord t ∧ Name.isKeyword t = false := by
  obtain ⟨book, hw⟩ := h.exists_written
  obtain ⟨d, hr, hget⟩ := Option.bind_eq_some_iff.1 hu
  obtain ⟨hname, hword⟩ := (hw.holds.databases x d (hw.resident x d hr)).table_name t u hget
  exact ⟨hname ▸ hword, h.unreserved.isKeyword_table hw hu⟩

/-- A row of a table that stands is shown with its texts. -/
theorem Grown.shows (h : e.Grown) (hb : e.catalog.Bears x t row) :
    e.Shows x t (row.map (·.text)) := by
  intro key hsel
  obtain ⟨u, hu, hrow⟩ := hb
  obtain ⟨-, d, hr⟩ := h.steady.exists_database hsel
  have hget := hu.resident d hr
  obtain ⟨hword, hkeyword⟩ := h.word ((table?_eq hr t).trans hget)
  obtain ⟨sess, hid⟩ := exists_session hsel
  let r : Result := .found u.columns u.rows
  have hout : (e.execute (Statement.selectCommand t) key).1 = ⟨.select, .ok r⟩ := by
    rw [execute_eq_of_run hid (Statement.ofCommand_selectCommand hword hkeyword),
      perform_select_whole hsel hr (by rwa [hu.small])]
    rfl
  have hruled : Table.Ruled r.header r.rows := hu.sound.ruled fun _ hm => hm
  refine ⟨Outcome.line r.header, r.rowTexts.map Outcome.line, ?_, ?_⟩
  · have hanswer : (e.handle (Statement.selectCommand t) key).1 =
        (⟨.select, .ok r⟩ : Outcome).response := congrArg Outcome.response hout
    rw [hanswer, Result.pieces_response rfl hruled]
  · rw [Result.map_pieces_rowTexts hruled]
    exact hu.sound.filter_texts hrow

/-! ## One event -/

/-- An event that does not strike a row leaves it in its table. -/
theorem Steady.bears_after (h : e.Steady) (hb : e.catalog.Bears x t row) (hn : e.Undisturbed [v])
    (hs : e.strikes x t (Table.rowId row) v = false) : (e.after v).catalog.Bears x t row := by
  obtain ⟨u, hu, hrow⟩ := hb
  obtain ⟨hdrops, hs⟩ := Bool.or_eq_false_iff.1 hs
  obtain ⟨w, hw, hbrings⟩ := h.stands_after hu hn hdrops
  refine ⟨w, hw, ?_⟩
  cases hbrings with
  | same => exact hrow
  | restart => exact hrow
  | @change _ s w carried about turns =>
    -- The session of the statement has the database selected, so that the table is resident.
    obtain ⟨text, key, -, -, -, hsel⟩ := carried?_eq_some_iff.1 carried
    obtain ⟨-, d, hr⟩ := h.exists_database hsel
    have hget : e.table? x t = some u := (table?_eq hr t).trans (hu.resident d hr)
    simp only [carried, about, hget, decide_true, Bool.true_and, Option.any_some] at hs
    exact turns.mem_rows hrow hs

/-- So does a run of such events. -/
theorem Steady.bears_afterAll (h : e.Steady) (hb : e.catalog.Bears x t row)
    (hn : e.Undisturbed vs) (hs : e.leaves x t (Table.rowId row) vs) :
    (e.afterAll vs).catalog.Bears x t row := by
  induction vs generalizing e with
  | nil => exact hb
  | cons v vs ih =>
    obtain ⟨hnv, hnvs⟩ := undisturbed_cons.1 hn
    simp only [leaves, Bool.and_eq_true, Bool.not_eq_true'] at hs
    exact ih (h.after v) (h.bears_after hb hnv hs.1) hnvs hs.2

/-! ## Inserting and using -/

/-- A row that can be made can be inserted. -/
theorem Grown.success_insert (h : e.Grown) (hsel : e.selection (key.getD defaultId) = some x)
    (hu : e.table? x t = some u) {values : List Value} {new : Table}
    (hread : Statement.ofCommand command = .ok (.insert t values))
    (hins : u.insert values = .ok (row, new)) : (e.execute command key).1.success := by
  obtain ⟨book, hw⟩ := h.exists_written
  obtain ⟨d, hr, hget⟩ := Option.bind_eq_some_iff.1 hu
  obtain ⟨sess, hid⟩ := exists_session hsel
  obtain ⟨c, hcarry⟩ := hw.exists_carry_insert hr hget hins
  have hfound : (d.get t).mapError Failure.rejected = .ok u := by
    rw [Database.get_eq_ok_iff.2 (by rwa [(hw.stands hr hget).small])]
    rfl
  have hedit : (Statement.insert t values).edit u = .ok (_, .row new row) :=
    Except.bind_eq_ok_iff.2 ⟨_, hins, rfl⟩
  rw [execute_eq_of_run hid hread,
    perform_table_run (s := .insert t values) rfl hsel (Catalog.table_resident hr t), hfound]
  simp only [bind, Except.bind, hedit]
  rw [finish_run (e.withCatalog e.catalog) hcarry]
  rfl

/-- A row that is inserted is there. -/
theorem Grown.bears_insert (h : e.Grown) (hsel : e.selection (key.getD defaultId) = some x)
    (hu : e.table? x t = some u) {values : List Value} {new : Table}
    (hread : Statement.ofCommand command = .ok (.insert t values))
    (hok : (e.execute command key).1.success) (hins : u.insert values = .ok (row, new))
    (hrow : row ∈ new.rows) : (e.after (.command command key)).catalog.Bears x t row := by
  obtain ⟨book, hw⟩ := h.exists_written
  obtain ⟨d, hr, hget⟩ := Option.bind_eq_some_iff.1 hu
  have hstands := Catalog.stands_calmed.2 (hw.stands hr hget)
  obtain ⟨-, result, disk, r, does, turns⟩ :=
    h.steady.succeeds_of_carried? (carried?_eq_some_iff.2 ⟨_, _, rfl, hread, hok, hsel⟩)
  obtain ⟨row', new', hins', hstands'⟩ := hstands.inserted h.steady.sane does turns
  cases hins.symm.trans hins'
  exact ⟨new, Catalog.stands_calmed.1 hstands', hrow⟩

/-- A database that is kept can be used in every session. -/
theorem Grown.success_use (h : e.Grown) (hx : e.catalog.archive.isKept x) {sess : Session}
    (hid : e.session key = .ok sess) :
    Statement.ofCommand (Statement.useCommand x) = .ok (.use x) ∧
      (e.execute (Statement.useCommand x) key).1.success := by
  obtain ⟨book, hw⟩ := h.exists_written
  obtain ⟨d, hd⟩ := Option.isSome_iff_exists.1 (hw.holds.isKept_iff.1 hx)
  have hkeyword : Name.isKeyword x = false := by
    refine h.unreserved.databases x fun hnone => ?_
    cases hnone.symm.trans (beq_iff_eq.1 hx)
  have hread := Statement.ofCommand_useCommand (hw.holds.databases x d hd).word hkeyword
  exact ⟨hread, (Chronicle.loads_of_written hw hd _ key sess hread hid).1⟩

/-- A database with a row can be used, and the row is still there. -/
theorem Grown.execute_use (h : e.Grown) (hb : e.catalog.Bears x t row) {sess : Session}
    (hid : e.session key = .ok sess) :
    let r := e.execute (Statement.useCommand x) key
    r.1.success ∧ r.2.selection (key.getD defaultId) = some x ∧ r.2.catalog.Bears x t row := by
  intro r
  obtain ⟨hread, hok⟩ := h.success_use hb.kept hid
  let use : Event := .command (Statement.useCommand x) key
  have hcarried : e.carried? use = some (e.selection (key.getD defaultId), .use x) :=
    carried?_eq_some_iff.2 ⟨_, _, rfl, hread, hok, rfl⟩
  have hquiet : e.Undisturbed [use] :=
    undisturbed_of_success fun a ha => List.mem_singleton.1 ha ▸ hok
  refine ⟨hok, ?_, h.steady.bears_after hb hquiet ?_⟩
  · rw [h.steady.selection_execute_iff]
    exact .inl (by simp [selects, uses, use, hcarried])
  · simp [strikes, drops, hcarried, Statement.strikes]

/-! ## Runs -/

/-- Texts without quotes, tabs and line breaks, as many as a table has columns beside the id, are
inserted. From then on their row is shown with just these texts after its id, through whatever run
leaves it alone, as long as no call to the disk fails. A session that has another database selected,
or none, as after a restart, can use this one and is shown the same. -/
theorem inserted_texts_shown {o : Options} (ho : o.Plain) (root : Text) (us : List Event)
    {key : Option Text} {x t : Text} {u : Table} {texts : List Text} :
    let e := (start o (Disk.empty root)).afterAll us
    let insert : Event := .command (Statement.insertCommand t texts) key
    let fields := Text.ofNat u.nextId :: texts
    e.selection (key.getD defaultId) = some x → e.table? x t = some u →
      (Text.ofNat u.nextId).length ≤ Text.digitLimit → texts.length = u.columns.length - 1 →
      (∀ s ∈ texts, ∀ c ∈ s, c ≠ '\'' ∧ c ≠ '\t' ∧ c ≠ '\r' ∧ c ≠ '\n') →
      (e.execute (Statement.insertCommand t texts) key).1.success ∧
        ∀ vs, (e.after insert).Undisturbed vs → (e.after insert).leaves x t u.nextId vs →
          let e' := (e.after insert).afterAll vs
          e'.Shows x t fields ∧ ∀ id sess, e'.session id = .ok sess →
            let r := e'.execute (Statement.useCommand x) id
            r.1.success ∧ r.2.selection (id.getD defaultId) = some x ∧ r.2.Shows x t fields := by
  intro e insert fields hsel hu hshort hlen htexts
  have he : e.Grown := ⟨o, root, us, ho, rfl⟩
  obtain ⟨hword, hkeyword⟩ := he.word hu
  have hread := Statement.ofCommand_insertCommand hword hkeyword
    fun s hs hq => (htexts s hs _ hq).1 rfl
  have hfit : ∀ s ∈ texts, s.fitsField := fun s hs =>
    Table.fitsField_iff.2 fun c hc => (htexts s hs c hc).2
  obtain ⟨row, new, hins, hrow, hfields : row.map (·.text) = fields⟩ :=
    Table.insert_texts hlen hfit hshort
  have hok := he.success_insert hsel hu hread hins
  have hb := he.bears_insert hsel hu hread hok hins hrow
  have hid : Table.rowId row = u.nextId := by
    rw [Table.rowId_eq, hfields]
    exact Text.toNat_ofNat _
  refine ⟨hok, fun vs hn hs => ?_⟩
  intro e'
  have he' : e'.Grown := (he.after insert).afterAll vs
  have hb' : e'.catalog.Bears x t row :=
    (he.after insert).steady.bears_afterAll hb hn (hid.symm ▸ hs)
  refine ⟨hfields ▸ he'.shows hb', fun id sess hsess => ?_⟩
  intro r
  obtain ⟨hused, hsel', hb''⟩ := he'.execute_use hb' hsess
  have hr : r.2.Grown := he'.after (.command (Statement.useCommand x) id)
  exact ⟨hused, hsel', hfields ▸ hr.shows hb''⟩

/-- An empty text, one that reads as a keyword and one with blanks, a sign and a line separator are
shown as they were inserted, after other rows came, changed and went, and the engine was restarted. -/
theorem inserted_texts_shown_after_restart :
    let o : Options := ⟨['.', 't', 'a', 'b'], false, .append, ['1']⟩
    let us : List Event :=
      [.command "CREATE DATABASE d;".toList none, .command "USE d;".toList none,
        .command "CREATE TABLE t (a, b, c);".toList none,
        .command "INSERT INTO t VALUES ('x', 1, NULL);".toList none]
    let texts : List Text := [[], ['N', 'U', 'L', 'L'], [' ', '+', '5', '\u2028', ' ']]
    let vs : List Event :=
      [.command "UPDATE t SET a = 'y' WHERE id == 1;".toList none,
        .command "INSERT INTO t VALUES ('z', 2, TRUE);".toList none,
        .command "DELETE FROM t WHERE b == 2;".toList none, .restart]
    let e := (start o (Disk.empty ['r'])).afterAll us
    let e' := (e.after (.command (Statement.insertCommand ['t'] texts) none)).afterAll vs
    let r := e'.execute (Statement.useCommand ['d']) none
    (e.execute (Statement.insertCommand ['t'] texts) none).1.success ∧ r.1.success ∧
      r.2.selection defaultId = some ['d'] ∧ r.2.Shows ['d'] ['t'] (['2'] :: texts) := by
  intro o us texts vs e e' r
  let u : Table :=
    ⟨['t'], [['i', 'd'], ['a'], ['b'], ['c']],
      [[⟨.number, ['1']⟩, ⟨.string, ['x']⟩, ⟨.number, ['1']⟩, .null]], 2⟩
  have hu : e.table? ['d'] ['t'] = some u := by decide +kernel
  have hall : ∀ a ∈ (e.after (.command (Statement.insertCommand ['t'] texts) none)).outcomes vs,
      a.success := by decide +kernel
  obtain ⟨hok, hkept⟩ := inserted_texts_shown ⟨by decide, by decide, by decide⟩ ['r'] us
    (by decide +kernel : e.selection (Option.getD none defaultId) = some ['d']) hu (by decide +kernel)
    (by decide) (by simp [texts] : ∀ s ∈ texts, ∀ c ∈ s, c ≠ '\'' ∧ c ≠ '\t' ∧ c ≠ '\r' ∧ c ≠ '\n')
  obtain ⟨-, hused⟩ := hkept vs (undisturbed_of_success hall) (by decide +kernel)
  have hsess : e'.session none = .ok ⟨none, 0⟩ :=
    session_eq_ok_iff.2 (by decide +kernel)
  have hid : Text.ofNat u.nextId = ['2'] := by decide +kernel
  exact ⟨hok, hid ▸ hused none _ hsess⟩

end Engine

end Tabular
