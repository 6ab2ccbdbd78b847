import Tabular.Proofs.Engine.Statements

/-!
# Commands

What an engine is when it starts, and what a command that can be read comes to in a session that is
open: its statement is carried out and counted. Two of them are followed to their end, using a
database and inserting a row.
-/

namespace Tabular

/-- Options whose pieces of file names stay within one name. -/
structure Engine.Options.Plain (o : Engine.Options) : Prop where
  suffix_ne : o.suffix ≠ []
  suffix_chars : '/' ∉ o.suffix ∧ '\x00' ∉ o.suffix
  stamp_chars : '/' ∉ o.stamp ∧ '\x00' ∉ o.stamp

namespace Engine

variable {e : Engine} {x command : Text}

@[simp] theorem record_catalog (label : Label) (success : Bool) (e : Engine) :
    (e.record label success).catalog = e.catalog := rfl

theorem closeSession_catalog (e : Engine) (id : Text) :
    (e.closeSession id).2.catalog = e.catalog := by
  unfold closeSession
  split <;> rfl

/-! ## Starting -/

/-- A new engine takes a disk as it is if there is a root. -/
theorem start_disk (o : Options) {disk : Disk} (h : disk.entries.get? [] = some .directory) :
    (start o disk).disk = disk := by
  have hroot : disk.entries.has [] = true := by
    rw [OrderedMap.has, h]
    rfl
  change disk.withRoot = disk
  rw [Disk.withRoot, if_pos hroot]

theorem restart_disk (h : e.disk.entries.get? [] = some .directory) : e.restart.disk = e.disk :=
  start_disk _ h

theorem start_settled {o : Options} {disk : Disk} (ho : o.Plain) (hd : disk.Proper) :
    (start o disk).catalog.Settled where
  plain := ⟨ho.1, ho.2, ho.3⟩
  proper := by
    have h : (start o disk).catalog.archive.disk = disk := start_disk o hd.root
    rw [h]
    exact hd
  grounded := fun y hy => by cases hy

theorem restart_settled (hs : e.catalog.Settled) : e.restart.catalog.Settled :=
  start_settled ⟨hs.plain.1, hs.plain.2, hs.plain.3⟩ hs.proper

/-! ## Running -/

theorem session_eq_ok_iff {key : Option Text} {sess : Session} :
    e.session key = .ok sess ↔ e.sessions.get? (key.getD defaultId) = some sess := by
  rw [session]
  cases e.sessions.get? (key.getD defaultId) <;> simp

theorem complete_run {id : Text} {s : Statement} {r : Except Failure Result} {e' : Engine}
    (h : (perform id s).run e = (r, e')) :
    (complete id s).run e =
      (r, e'.onSuccess r fun e => e.withSession id fun s => { s with executed := s.executed + 1 }) := by
  rw [complete, Action.run_bind, h]
  cases r <;> rfl

/-- A command that can be read is carried out for an open session and counted. -/
theorem execute_run {command : Text} {id : Option Text} {sess : Session}
    (hid : e.session id = .ok sess) {s : Statement} (hs : Statement.ofCommand command = .ok s)
    {r : Except Failure Result} {e' : Engine}
    (h : (perform (id.getD defaultId) s).run e = (r, e')) :
    e.execute command id =
      (⟨s.label, r⟩,
        (e'.onSuccess r fun e => e.withSession (id.getD defaultId)
          fun s => { s with executed := s.executed + 1 }).record s.label r.isOk) := by
  have ho : (⟨s.label, r⟩ : Outcome).success = r.isOk := by cases r <;> rfl
  rw [execute, hid]
  simp only [hs, complete_run h, ho]

/-! ## Using a database -/

theorem execute_use (hs : e.catalog.Settled) (hx : Disk.IsName x)
    (hc : Statement.ofCommand command = .ok (.use x)) {sess : Session}
    (hid : e.session none = .ok sess) :
    (e.execute command none).1 =
        ⟨.use, (e.catalog.found x).map fun _ => .done ["Using database ", x]⟩ ∧
      e.catalog.Becomes e.catalog.archive.disk (e.catalog.heldAfter x)
        (e.execute command none).2.catalog := by
  obtain ⟨c, hrun, hb⟩ := Catalog.use_run hs hx
  have hex := execute_run hid hc (perform_use_run defaultId hrun)
  rw [hex]
  refine ⟨rfl, ?_⟩
  cases e.catalog.found x <;>
    simpa only [Except.map, onSuccess, record_catalog, withSession_catalog, withCatalog_catalog]
      using hb

/-- A command to use a database succeeds and finds this. -/
def Opens (e : Engine) (x : Text) (d : Database) : Prop :=
  ∀ command, Statement.ofCommand command = .ok (.use x) →
    (e.execute command none).1.success ∧
      (e.execute command none).2.catalog.resident.get? x = some d

theorem opens_iff (hs : e.catalog.Settled) (hx : Disk.IsName x)
    (huse : Statement.ofCommand command = .ok (.use x)) {sess : Session}
    (hid : e.session none = .ok sess) {d : Database} :
    e.Opens x d ↔ e.catalog.found x = .ok d := by
  constructor
  · intro hopens
    have hget := (hopens command huse).2
    rw [(execute_use hs hx huse hid).2.resident, Catalog.get?_heldAfter_self] at hget
    exact Except.toOption_eq_some_iff.1 hget
  · intro hf other hread
    obtain ⟨hout, hb⟩ := execute_use hs hx hread hid
    rw [hout, hb.resident, Catalog.get?_heldAfter_self, hf]
    exact ⟨rfl, rfl⟩

/-- A session that used a database has it selected. -/
theorem selection_execute_use (hs : e.catalog.Settled) (hx : Disk.IsName x)
    (hc : Statement.ofCommand command = .ok (.use x)) {sess : Session}
    (hid : e.session none = .ok sess) {d : Database} (hf : e.catalog.found x = .ok d) :
    (e.execute command none).2.selection defaultId = some x ∧
      ∃ sess', (e.execute command none).2.session none = .ok sess' := by
  obtain ⟨c, hrun, hb⟩ := Catalog.use_run hs hx
  rw [hf] at hrun
  have hget := withSession_sessions (e := e.withCatalog c) (fun s => { s with database := some x })
    (session_eq_ok_iff.1 hid)
  have hget' := withSession_sessions (fun s => { s with executed := s.executed + 1 }) hget
  have hex := execute_run hid hc (perform_use_run defaultId hrun)
  rw [hex]
  exact ⟨congrArg (Option.bind · Session.database) hget', _, session_eq_ok_iff.2 hget'⟩

/-! ## Inserting a row -/

/-- An insertion into a resident table, by way of its change. -/
theorem execute_insert {d : Database} {old new : Table} {row : Row} {name : Text}
    {values : List Value} (hs : e.catalog.Settled) (hx : Disk.IsName x)
    (hid : ∃ sess, e.session none = .ok sess) (hsel : e.selection defaultId = some x)
    (hr : e.catalog.resident.get? x = some d) (hk : d.tables.get? (Text.lower name) = some old)
    (hc : Statement.ofCommand command = .ok (.insert name values))
    (hi : old.insert values = .ok (row, new)) {disk : Disk} {r : OrderedMap Text Database}
    (hcarry : ∀ c, e.catalog.Stays c → ∃ c',
      ((Catalog.Edit.row new row).carry x).run c = (.ok (), c') ∧ c.Becomes disk r c') :
    (e.execute command none).1 = ⟨.insert, .ok (.changed 1 ["Inserted 1 row"])⟩ ∧
      e.catalog.Becomes disk r (e.execute command none).2.catalog := by
  obtain ⟨sess, hid⟩ := hid
  obtain ⟨c, hrun, hstay⟩ := Catalog.table_run hs hx name
  rw [Catalog.heldAfter_of_get? hr] at hstay
  rw [Catalog.found_table_iff.2 ⟨d, Catalog.found_of_get? hr, hk⟩] at hrun
  have hedit : Statement.edit (.insert name values) old =
      .ok (.changed 1 ["Inserted 1 row"], .row new row) := by
    simp only [Statement.edit, hi]
    rfl
  have hp := perform_table_run (s := .insert name values) rfl hsel hrun
  simp only [bind, Except.bind, hedit] at hp
  obtain ⟨c', hrun', hb'⟩ := hcarry c hstay
  have hex := execute_run hid hc (hp.trans (finish_run (e.withCatalog c) hrun' _))
  rw [hex]
  refine ⟨rfl, ?_⟩
  simp only [Except.map, onSuccess, record_catalog, withSession_catalog, withCatalog_catalog]
  exact hstay.trans hb'

end Engine

end Tabular
