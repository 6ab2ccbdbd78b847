import Tabular.Proofs.Catalog.InStep
import Tabular.Proofs.Engine.Events

/-!
# Engines in step

An engine that appends new rows and one that writes every table in whole have the same sessions and
catalogs alongside each other. Each command has the same outcome with both, and so have all commands
of a run, unless a call to the disk fails for the second one.
-/

namespace Tabular.Engine

open Catalog (Edit)

/-- An engine that appends rows, and one that writes tables in whole. -/
structure Alongside (good : Text → Prop) (e w : Engine) : Prop where
  catalog : e.catalog.Alongside good w.catalog
  sessions : w.sessions = e.sessions
  opened : w.opened = e.opened
  chosen : e.Chosen

/-- A piece of work has one result here and there, and keeps the engines alongside, unless a call to
the disk fails there. -/
def InStep {α : Type} (good : Text → Prop) (m : Work α) (e w : Engine) : Prop :=
  ∃ r w', m.run w = (r, w') ∧
    ((∀ f, r = .error f → ¬ f.OfDisk) → ∃ e', m.run e = (r, e') ∧ Alongside good e' w')

variable {good : Text → Prop} {e w : Engine} {id x : Text} {s : Statement} {command : Text}

theorem Alongside.selection (h : Alongside good e w) (id : Text) :
    w.selection id = e.selection id := by
  rw [Engine.selection, Engine.selection, h.sessions]

theorem Alongside.withCatalog (h : Alongside good e w) {c c' : Catalog}
    (hc : c.Alongside good c') : Alongside good (e.withCatalog c) (w.withCatalog c') :=
  ⟨hc, h.sessions, h.opened, h.chosen⟩

theorem Alongside.withSession (h : Alongside good e w) (id : Text) {f : Session → Session}
    (hf : ∀ s x, (f s).database = some x → s.database = some x ∨ Name.IsWord x) :
    Alongside good (e.withSession id f) (w.withSession id f) := by
  refine ⟨by simpa using h.catalog, ?_, ?_, h.chosen.withSession id hf⟩
  · unfold Engine.withSession
    rw [h.sessions]
    cases e.sessions.get? id with
    | none => exact h.sessions
    | some s => rfl
  · unfold Engine.withSession
    rw [h.sessions]
    cases e.sessions.get? id <;> exact h.opened

theorem Alongside.forgetting (h : Alongside good e w) (x : Text) :
    Alongside good (e.forgetting x) (w.forgetting x) :=
  ⟨h.catalog, by rw [Engine.forgetting, Engine.forgetting, h.sessions], h.opened,
    h.chosen.forgetting x⟩

/-- Work that stops for want of a database stops here and there. -/
theorem Alongside.unselected (h : Alongside good e w) (hs : s.isLocal)
    (hsel : e.selection id = none) : InStep good (perform id s) e w :=
  ⟨_, w, perform_unselected hs ((h.selection id).trans hsel),
    fun _ => ⟨e, perform_unselected hs hsel, h⟩⟩

/-! ## Statements -/

/-- A statement about one table that a command can be read as. -/
theorem Alongside.perform_table (h : Alongside good e w)
    (hs : Statement.ofCommand command = .ok s) {t : Text} (ht : s.table? = some t) (id : Text) :
    InStep good (perform id s) e w := by
  cases hsel : e.selection id with
  | none =>
    exact h.unselected (Statement.isLocal_of_table ht) hsel
  | some x =>
    obtain ⟨r, c, c', hrun, hrun', hc, hold⟩ := h.catalog.table (h.chosen id x hsel).isName t
    have hp := perform_table_run ht hsel hrun
    have hp' := perform_table_run ht ((h.selection id).trans hsel) hrun'
    cases hedit : r >>= s.edit with
    | error f =>
      rw [hedit] at hp hp'
      exact ⟨_, _, hp', fun _ => ⟨_, hp, h.withCatalog hc⟩⟩
    | ok p =>
      obtain ⟨result, edit⟩ := p
      rw [hedit] at hp hp'
      obtain ⟨old, hr, hold'⟩ := Except.bind_eq_ok_iff.1 hedit
      obtain ⟨d, hres, hget⟩ := hold old hr
      have hb := hc.held x d hres _ old hget
      have hi : ∀ t' row, edit = .row t' row →
          Disk.fits (c.archive.temporaryName old.name) → c.archive.Insertable old := by
        rintro t' row rfl hfits
        obtain ⟨name, values, rfl, hins⟩ := Statement.edit_row hold'
        cases ht
        exact ⟨hfits, command, t, values, row, t', hs, hb.key.symm, hins⟩
      obtain ⟨u, d', hcarry', himp⟩ := hc.carry hres hget (Statement.edit_fits hb.sound hold') hi
      refine ⟨_, _, hp'.trans (finish_run (w.withCatalog c') hcarry' result), fun hn => ?_⟩
      obtain ⟨d, hcarry, hd⟩ := himp fun f hf => hn f (by rw [hf]; rfl)
      exact ⟨_, hp.trans (finish_run (e.withCatalog c) hcarry result), h.withCatalog hd⟩

theorem Alongside.perform_use (h : Alongside good e w) (hx : Name.IsWord x) (id : Text) :
    InStep good (perform id (.use x)) e w := by
  obtain ⟨r, c', hrun', himp⟩ := h.catalog.use hx.isName
  refine ⟨_, _, perform_use_run id hrun', fun hn => ?_⟩
  obtain ⟨c, hrun, hc⟩ := himp fun f hf => hn f (by rw [hf]; rfl)
  refine ⟨_, perform_use_run id hrun, ?_⟩
  cases r with
  | error f => exact h.withCatalog hc
  | ok d =>
    apply (h.withCatalog hc).withSession id
    rintro s y ⟨⟩
    exact .inr hx

theorem Alongside.perform_createDatabase (h : Alongside good e w) (hx : Name.IsWord x) (id : Text) :
    InStep good (perform id (.createDatabase x)) e w := by
  obtain ⟨r, c', hrun', himp⟩ := h.catalog.createDatabase hx.isName
  refine ⟨_, _, perform_createDatabase_run id hrun', fun hn => ?_⟩
  obtain ⟨c, hrun, hc⟩ := himp fun f hf => hn f (by rw [hf]; rfl)
  exact ⟨_, perform_createDatabase_run id hrun, h.withCatalog hc⟩

theorem Alongside.perform_dropDatabase (h : Alongside good e w) (hx : Name.IsWord x) (id : Text) :
    InStep good (perform id (.dropDatabase x)) e w := by
  obtain ⟨r, c', hrun', himp⟩ := h.catalog.dropDatabase hx.isName
  refine ⟨_, _, perform_dropDatabase_run id hrun', fun hn => ?_⟩
  obtain ⟨c, hrun, hc⟩ := himp fun f hf => hn f (by rw [hf]; rfl)
  refine ⟨_, perform_dropDatabase_run id hrun, ?_⟩
  cases r with
  | error f => exact h.withCatalog hc
  | ok u => exact (h.withCatalog hc).forgetting x

theorem Alongside.perform_createTable (h : Alongside good e w) {t : Text} (ht : Name.IsWord t)
    (columns : List Text) (id : Text) : InStep good (perform id (.createTable t columns)) e w := by
  cases hsel : e.selection id with
  | none => exact h.unselected rfl hsel
  | some x =>
    obtain ⟨r, c', hrun', himp⟩ := h.catalog.createTable (h.chosen id x hsel).isName
      (h.catalog.settled.plain.isName_fileName ht) columns
    refine ⟨_, _, perform_createTable_run ((h.selection id).trans hsel) hrun', fun hn => ?_⟩
    obtain ⟨c, hrun, hc⟩ := himp fun f hf => hn f (by rw [hf]; rfl)
    exact ⟨_, perform_createTable_run hsel hrun, h.withCatalog hc⟩

theorem Alongside.perform_dropTable (h : Alongside good e w) {t : Text} (ht : Name.IsWord t)
    (id : Text) : InStep good (perform id (.dropTable t)) e w := by
  cases hsel : e.selection id with
  | none => exact h.unselected rfl hsel
  | some x =>
    obtain ⟨r, c', hrun', himp⟩ := h.catalog.dropTable (h.chosen id x hsel).isName
      (h.catalog.settled.plain.isName_fileName ht)
    refine ⟨_, _, perform_dropTable_run ((h.selection id).trans hsel) hrun', fun hn => ?_⟩
    obtain ⟨c, hrun, hc⟩ := himp fun f hf => hn f (by rw [hf]; rfl)
    exact ⟨_, perform_dropTable_run hsel hrun, h.withCatalog hc⟩

theorem Alongside.perform_join (h : Alongside good e w)
    (left right leftColumn rightColumn id : Text) :
    InStep good (perform id (.join left right leftColumn rightColumn)) e w := by
  cases hsel : e.selection id with
  | none => exact h.unselected rfl hsel
  | some x =>
    have hx := (h.chosen id x hsel).isName
    obtain ⟨l, c, c', hl, hl', hc, -⟩ := h.catalog.table hx left
    obtain ⟨r, c₂, c₂', hr, hr', hc₂, -⟩ := hc.table hx right
    refine ⟨_, _, perform_join_run ((h.selection id).trans hsel) hl' hr',
      fun _ => ⟨_, perform_join_run hsel hl hr, ?_⟩⟩
    cases l with
    | error f => exact h.withCatalog hc
    | ok l => exact h.withCatalog hc₂

/-- Every statement that a command can be read as. -/
theorem Alongside.perform (h : Alongside good e w) (hs : Statement.ofCommand command = .ok s)
    (id : Text) : InStep good (perform id s) e w := by
  have hnamed := Statement.ofCommand_named hs
  cases s with
  | use x => exact h.perform_use hnamed id
  | createDatabase x => exact h.perform_createDatabase hnamed id
  | dropDatabase x => exact h.perform_dropDatabase hnamed id
  | createTable t columns => exact h.perform_createTable hnamed columns id
  | dropTable t => exact h.perform_dropTable hnamed id
  | join l r lc rc => exact h.perform_join l r lc rc id
  | alterTable t action column => exact h.perform_table hs rfl id
  | insert t values => exact h.perform_table hs rfl id
  | select t columns condition => exact h.perform_table hs rfl id
  | update t assignments condition => exact h.perform_table hs rfl id
  | delete t condition => exact h.perform_table hs rfl id

/-! ## Runs -/

/-- The commands among events, and what they come to one after the other. -/
def outcomes (e : Engine) : List Event → List Outcome
  | [] => []
  | .command text id :: vs => (e.execute text id).1 :: outcomes (e.after (.command text id)) vs
  | v :: vs => outcomes (e.after v) vs

def afterAll (e : Engine) (vs : List Event) : Engine := vs.foldl after e

/-- No command of the run fails because of a call to the disk. -/
def Undisturbed (e : Engine) (vs : List Event) : Prop :=
  ∀ o ∈ e.outcomes vs, ∀ f, o.result = .error f → ¬ f.OfDisk

theorem Alongside.record (h : Alongside good e w) (label : Label) (success : Bool) :
    Alongside good (e.record label success) (w.record label success) :=
  ⟨h.catalog, h.sessions, h.opened, h.chosen⟩

theorem Alongside.execute (h : Alongside good e w) (command : Text) (id : Option Text)
    (hn : ∀ f, (w.execute command id).1.result = .error f → ¬ f.OfDisk) :
    (e.execute command id).1 = (w.execute command id).1 ∧
      Alongside good (e.execute command id).2 (w.execute command id).2 := by
  have hsession : w.session id = e.session id := by rw [session, session, h.sessions]
  cases hid : e.session id with
  | error f =>
    simp only [Engine.execute, hsession, hid]
    exact ⟨trivial, h.record .unknown false⟩
  | ok sess =>
    cases hs : Statement.ofCommand command with
    | error f =>
      simp only [Engine.execute, hsession, hid, hs]
      exact ⟨trivial, h.record .unknown false⟩
    | ok s =>
      obtain ⟨r, w', hrun', himp⟩ := h.perform hs (id.getD defaultId)
      have hex' := execute_run (hsession.trans hid) hs hrun'
      rw [hex'] at hn ⊢
      obtain ⟨e', hrun, h'⟩ := himp hn
      rw [execute_run hid hs hrun]
      refine ⟨rfl, Alongside.record ?_ _ _⟩
      cases r with
      | error f => exact h'
      | ok result => exact h'.withSession _ fun s x hx => .inl hx

theorem Alongside.openSession (h : Alongside good e w) :
    Alongside good e.openSession.2 w.openSession.2 :=
  ⟨h.catalog, by simp only [Engine.openSession, h.sessions, h.opened],
    by simp only [Engine.openSession, h.opened], h.chosen.openSession⟩

theorem Alongside.closeSession (h : Alongside good e w) (id : Text) :
    Alongside good (e.closeSession id).2 (w.closeSession id).2 := by
  refine ⟨?_, ?_, ?_, h.chosen.closeSession id⟩
  · rw [closeSession_catalog, closeSession_catalog]
    exact h.catalog
  · unfold Engine.closeSession
    split <;> simp only [h.sessions]
  · unfold Engine.closeSession
    split <;> exact h.opened

/-- The commands of a run have the same outcomes with both engines. -/
theorem Alongside.afterAll (h : Alongside good e w) {vs : List Event} (hv : .restart ∉ vs)
    (hn : w.Undisturbed vs) :
    e.outcomes vs = w.outcomes vs ∧ Alongside good (e.afterAll vs) (w.afterAll vs) := by
  induction vs generalizing e w with
  | nil => exact ⟨rfl, h⟩
  | cons v vs ih =>
    have hv' : .restart ∉ vs := fun hm => hv (List.mem_cons_of_mem _ hm)
    cases v with
    | command text id =>
      obtain ⟨ho, h'⟩ := h.execute text id (hn _ List.mem_cons_self)
      obtain ⟨hos, h''⟩ := ih h' hv' fun o ho => hn o (List.mem_cons_of_mem _ ho)
      exact ⟨by rw [outcomes, outcomes, ho]; exact congrArg _ hos, h''⟩
    | openSession => exact ih h.openSession hv' hn
    | closeSession id => exact ih (h.closeSession id) hv' hn
    | restart => exact absurd List.mem_cons_self hv

end Tabular.Engine
