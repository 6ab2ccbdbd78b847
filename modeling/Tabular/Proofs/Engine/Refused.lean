import Tabular.Proofs.Catalog.Sane
import Tabular.Proofs.Engine.Statements

/-!
# Statements on a disk that refuses

What comes of a statement, whatever the disk refuses, as long as the catalog is sane and every
database that a session has selected is resident: it succeeds or fails as its outcomes for the
catalog say, and the sessions change only if it succeeds.
-/

namespace Tabular.Engine

open Catalog (Succeeds Fails)

/-- An engine on an honest disk whose sessions have resident databases selected. -/
structure Steady (e : Engine) : Prop where
  honest : e.catalog.Honest
  sane : e.catalog.calmed.Sane
  seated : ∀ id x, e.selection id = some x → Name.IsWord x ∧ e.catalog.resident.has x

/-- The engine with the selections that a statement makes when it succeeds. -/
def reseated (e : Engine) (id : Text) : Statement → Engine
  | .use x => e.withSession id fun s => { s with database := some x }
  | .dropDatabase x => e.forgetting x
  | _ => e

/-- What comes of a statement in a session. -/
inductive Comes (e : Engine) (id : Text) (s : Statement) : Except Failure Result → Engine → Prop
  | succeeds {result : Result} {e' : Engine} {disk : Disk} {r : OrderedMap Text Database}
    (honest : e'.catalog.Honest) (turns : e.catalog.Turns disk r e'.catalog)
    (does : e.catalog.calmed.Succeeds (e.selection id) s result disk r)
    (sessions : e'.sessions = (e.reseated id s).sessions) : e.Comes id s (.ok result) e'
  | fails {f : Failure} {e' : Engine} {disk : Disk} {r : OrderedMap Text Database}
    (honest : e'.catalog.Honest) (turns : e.catalog.Turns disk r e'.catalog)
    (does : e.catalog.calmed.Fails (e.selection id) s f disk r)
    (sessions : e'.sessions = e.sessions) : e.Comes id s (.error f) e'

variable {e : Engine} {id x t : Text} {s : Statement}

@[simp] theorem withCatalog_sessions (e : Engine) (c : Catalog) :
    (e.withCatalog c).sessions = e.sessions := rfl

theorem withSession_withCatalog_sessions (e : Engine) (c : Catalog) (id : Text)
    (f : Session → Session) :
    ((e.withCatalog c).withSession id f).sessions = (e.withSession id f).sessions := by
  rw [withSession, withSession, withCatalog_sessions]
  cases e.sessions.get? id <;> rfl

theorem Steady.exists_database (h : e.Steady) (hsel : e.selection id = some x) :
    Name.IsWord x ∧ ∃ d, e.catalog.resident.get? x = some d :=
  ⟨(h.seated id x hsel).1, Option.isSome_iff_exists.1 (h.seated id x hsel).2⟩

theorem Steady.honest_of_run (h : e.Steady) {α : Type} {w : Catalog.Work α}
    (hw : Action.Undeterred Catalog.Honest Catalog.calmed w) {r : Except Failure α} {c : Catalog}
    (hrun : w.run e.catalog = (r, c)) : c.Honest := hw.good_of_run h.honest hrun

/-- A failure before the catalog is asked leaves all as it was. -/
theorem Steady.comes_unselected (h : e.Steady) (hs : s.isLocal) (hsel : e.selection id = none) :
    e.Comes id s ((perform id s).run e).1 ((perform id s).run e).2 := by
  rw [perform_unselected hs hsel]
  refine .fails h.honest (Catalog.Same.refl _) ?_ rfl
  cases ht : s.table? with
  | none => exact .unchanged ht
  | some t => exact .unworked ht (.inl rfl)

theorem Steady.comes_use (h : e.Steady) (hx : Name.IsWord x) (id : Text) :
    e.Comes id (.use x) ((perform id (.use x)).run e).1 ((perform id (.use x)).run e).2 := by
  cases hrun : (Catalog.use x).run e.catalog with
  | mk r c =>
    have hc := h.honest_of_run (Catalog.undeterred_use x) hrun
    rw [perform_use_run id hrun]
    cases r with
    | error f =>
      exact .fails hc (Catalog.use_eq_error h.honest h.sane.settled hx.isName hrun)
        (.unchanged rfl) rfl
    | ok d =>
      obtain ⟨hf, hb⟩ := Catalog.use_eq_ok h.honest h.sane.settled hx.isName hrun
      refine .succeeds ?_ ?_ (.use hf) (withSession_withCatalog_sessions ..)
      · rw [onSuccess, withSession_catalog]
        exact hc
      · rw [onSuccess, withSession_catalog]
        exact hb

theorem Steady.comes_createDatabase (h : e.Steady) (hx : Name.IsWord x) (id : Text) :
    e.Comes id (.createDatabase x) ((perform id (.createDatabase x)).run e).1
      ((perform id (.createDatabase x)).run e).2 := by
  cases hrun : (Catalog.createDatabase x).run e.catalog with
  | mk r c =>
    have hc := (Catalog.undeterred_createDatabase hx.isName).good_of_run
      ⟨h.honest, h.sane.settled.proper.root⟩ hrun
    rw [perform_createDatabase_run id hrun]
    cases r with
    | error f =>
      exact .fails hc.1 (Catalog.createDatabase_eq_error h.honest h.sane.settled hx.isName hrun)
        (.unchanged rfl) rfl
    | ok d =>
      obtain ⟨hfit, hfree, hb⟩ :=
        Catalog.createDatabase_eq_ok h.honest h.sane.settled hx.isName hrun
      exact .succeeds hc.1 hb (.createDatabase hfit hfree) rfl

theorem Steady.comes_dropDatabase (h : e.Steady) (hx : Name.IsWord x) (id : Text) :
    e.Comes id (.dropDatabase x) ((perform id (.dropDatabase x)).run e).1
      ((perform id (.dropDatabase x)).run e).2 := by
  cases hrun : (Catalog.dropDatabase x).run e.catalog with
  | mk r c =>
    have hc := h.honest_of_run (Catalog.undeterred_dropDatabase x) hrun
    rw [perform_dropDatabase_run id hrun]
    cases r with
    | error f =>
      obtain hs | ⟨hs, hk, p, cause, rfl⟩ :=
        Catalog.dropDatabase_eq_error h.honest h.sane.settled hx.isName hrun
      · exact .fails hc hs (.unchanged rfl) rfl
      · exact .fails hc hs (.emptied hk) rfl
    | ok u =>
      exact .succeeds hc (Catalog.dropDatabase_eq_ok h.honest h.sane.settled hx.isName hrun)
        .dropDatabase rfl

theorem Steady.comes_createTable (h : e.Steady) (ht : Name.IsWord t) (columns : List Text)
    (id : Text) :
    e.Comes id (.createTable t columns) ((perform id (.createTable t columns)).run e).1
      ((perform id (.createTable t columns)).run e).2 := by
  cases hsel : e.selection id with
  | none => exact h.comes_unselected rfl hsel
  | some x =>
    obtain ⟨-, d, hr⟩ := h.exists_database hsel
    have hn : Disk.IsName (e.catalog.archive.fileName t) :=
      h.sane.settled.plain.isName_fileName ht
    cases hrun : (Catalog.createTable x t columns).run e.catalog with
    | mk r c =>
      have hc := h.honest_of_run (Catalog.undeterred_createTable x t columns) hrun
      rw [perform_createTable_run hsel hrun]
      cases r with
      | error f =>
        obtain hs | ⟨hf, hres, ⟨hfit, hfree, content, hs⟩, hm⟩ :=
          Catalog.createTable_eq_error h.honest h.sane.settled hr hn hrun
        · exact .fails hc hs (.unchanged rfl) rfl
        · exact .fails hc ⟨hs.disk, hs.suffix, hs.safe, hs.stamp, hm, hres⟩
            (.draft hsel (h.sane.settled.isKept hr) hf hfit hfree) rfl
      | ok new =>
        obtain ⟨hfresh, hmade, hw, hb⟩ :=
          Catalog.createTable_eq_ok h.honest h.sane.settled hr hn hrun
        exact .succeeds hc hb (.createTable hsel hr hfresh hmade hw) rfl

theorem Steady.comes_dropTable (h : e.Steady) (ht : Name.IsWord t) (id : Text) :
    e.Comes id (.dropTable t) ((perform id (.dropTable t)).run e).1
      ((perform id (.dropTable t)).run e).2 := by
  cases hsel : e.selection id with
  | none => exact h.comes_unselected rfl hsel
  | some x =>
    obtain ⟨-, d, hr⟩ := h.exists_database hsel
    have hn : Disk.IsName (e.catalog.archive.fileName t) :=
      h.sane.settled.plain.isName_fileName ht
    cases hrun : (Catalog.dropTable x t).run e.catalog with
    | mk r c =>
      have hc := h.honest_of_run (Catalog.undeterred_dropTable x t) hrun
      rw [perform_dropTable_run hsel hrun]
      cases r with
      | error f => exact .fails hc (Catalog.dropTable_eq_error h.honest hr hrun) (.unchanged rfl) rfl
      | ok u =>
        obtain ⟨old, hget, hb⟩ := Catalog.dropTable_eq_ok h.honest h.sane.settled hr hn hrun
        exact .succeeds hc hb (.dropTable hsel hr hget) rfl

theorem Steady.comes_join (h : e.Steady) (left right leftColumn rightColumn id : Text) :
    e.Comes id (.join left right leftColumn rightColumn)
      ((perform id (.join left right leftColumn rightColumn)).run e).1
      ((perform id (.join left right leftColumn rightColumn)).run e).2 := by
  cases hsel : e.selection id with
  | none => exact h.comes_unselected rfl hsel
  | some x =>
    obtain ⟨-, d, hr⟩ := h.exists_database hsel
    rw [perform_join_run hsel (Catalog.table_resident hr left) (Catalog.table_resident hr right)]
    have he : (e.withCatalog e.catalog).onSuccess ((d.get left).mapError Failure.rejected)
        (fun e' => e'.withCatalog e.catalog) = e := by
      cases d.get left <;> rfl
    rw [he]
    cases (do let l ← (d.get left).mapError Failure.rejected
              let r ← (d.get right).mapError Failure.rejected
              let p ← Join.join l r leftColumn rightColumn
              return Result.found p.1 p.2 : Except Failure Result) with
    | error f => exact .fails h.honest (Catalog.Same.refl _) (.unchanged rfl) rfl
    | ok result => exact .succeeds h.honest (Catalog.Same.refl _) .join rfl

/-- A statement about one table finds it, works out its change and carries that out. -/
theorem Steady.comes_table (h : e.Steady) (hs : s.table? = some t) (id : Text) :
    e.Comes id s ((perform id s).run e).1 ((perform id s).run e).2 := by
  cases hsel : e.selection id with
  | none =>
    exact h.comes_unselected (Statement.isLocal_of_table hs) hsel
  | some x =>
    obtain ⟨-, d, hr⟩ := h.exists_database hsel
    rw [perform_table_run hs hsel (Catalog.table_resident hr t)]
    cases hget : d.get t with
    | error cause =>
      have hcause : cause = .unknownTable (Text.lower t) := by
        rw [Database.get] at hget
        split at hget <;> cases hget
        rfl
      exact .fails h.honest (Catalog.Same.refl _)
        (.unworked hs (.inr (.inl ⟨_, by rw [hcause]⟩))) rfl
    | ok old =>
      have hold := Database.get_eq_ok_iff.1 hget
      simp only [Except.mapError, bind, Except.bind]
      cases hw : s.edit old with
      | error f =>
        exact .fails h.honest (Catalog.Same.refl _) (.unworked hs (.inr (.inr ⟨old, hw⟩))) rfl
      | ok p =>
        obtain ⟨result, edit⟩ := p
        have hn : ∀ t, edit.table? = some t → Disk.IsName (e.catalog.archive.fileName t.name) ∧
            Disk.fits (e.catalog.archive.fileName t.name) := fun t ht =>
          ⟨(h.sane.holdable_edit hr hold hw ht).1.isName, (h.sane.holdable_edit hr hold hw ht).1.fits⟩
        cases hrun : (edit.carry x).run e.catalog with
        | mk r c =>
          have hc := h.honest_of_run (Catalog.undeterred_carry x edit) hrun
          simp only [finish_run (e.withCatalog e.catalog) hrun result]
          cases r with
          | error f =>
            obtain ⟨new, disk, hmade, hl, hb⟩ :=
              Catalog.carry_eq_error h.honest h.sane.settled hr hn hrun
            exact .fails hc hb (.edit hs hsel hr hold hw hmade hl) rfl
          | ok u =>
            obtain ⟨disk, hwr, hb⟩ := Catalog.carry_eq_ok h.sane.settled hr hn
              ((Catalog.undeterred_carry x edit).ok_run h.honest hrun)
            refine .succeeds hc hb (.edit hs hsel hr hold hw hwr) ?_
            cases s <;> first | rfl | cases hs

/-- What comes of any statement that a command can be read as. -/
theorem Steady.comes (h : e.Steady) (hs : s.Named) (id : Text) :
    e.Comes id s ((perform id s).run e).1 ((perform id s).run e).2 := by
  cases s with
  | use x => exact h.comes_use hs id
  | createDatabase x => exact h.comes_createDatabase hs id
  | dropDatabase x => exact h.comes_dropDatabase hs id
  | createTable t columns => exact h.comes_createTable hs columns id
  | dropTable t => exact h.comes_dropTable hs id
  | join l r lc rc => exact h.comes_join l r lc rc id
  | alterTable t action column => exact h.comes_table rfl id
  | insert t values => exact h.comes_table rfl id
  | select t columns condition => exact h.comes_table rfl id
  | update t assignments condition => exact h.comes_table rfl id
  | delete t condition => exact h.comes_table rfl id

end Tabular.Engine
