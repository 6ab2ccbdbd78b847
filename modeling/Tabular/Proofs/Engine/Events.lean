import Tabular.Proofs.Engine.Commands
import Tabular.Proofs.Engine.WriteThrough

/-!
# Events

What happens to an engine from outside: commands, sessions that come and go, and restarts. Each of
them leads from one book to another.
-/

namespace Tabular

/-- A restart puts a new engine over the disk of the old one. -/
inductive Event where
  | command (text : Text) (session : Option Text)
  | openSession
  | closeSession (id : Text)
  | restart
  deriving DecidableEq, Repr

namespace Engine

def after (e : Engine) : Event → Engine
  | .command text id => (e.execute text id).2
  | .openSession => e.openSession.2
  | .closeSession id => (e.closeSession id).2
  | .restart => e.restart

/-- The databases that stand after an event: those created and not dropped. -/
def standing (e : Engine) (before : List Text) : Event → List Text
  | .command text id =>
    match Statement.ofCommand text with
    | .ok s => s.standing (e.execute text id).1.success before
    | .error _ => before
  | _ => before

variable {e : Engine} {book : Book}

theorem Chosen.record (he : e.Chosen) (label : Label) (success : Bool) :
    (e.record label success).Chosen := he

theorem Chosen.openSession (he : e.Chosen) : e.openSession.2.Chosen := by
  intro id x hx
  simp only [selection, Engine.openSession, OrderedMap.get?_put] at hx
  split at hx
  · cases hx
  · exact he id x hx

theorem Chosen.closeSession (he : e.Chosen) (id : Text) : (e.closeSession id).2.Chosen := by
  unfold Engine.closeSession
  split
  · exact he
  · intro id' x hx
    simp only [selection, OrderedMap.get?_erase] at hx
    split at hx
    · cases hx
    · exact he id' x hx

theorem restart_chosen (e : Engine) : e.restart.Chosen := by
  intro id x hx
  simp only [selection, restart, start, OrderedMap.get?_put] at hx
  split at hx <;> cases hx

theorem restart_written (h : e.catalog.Written book) : e.restart.catalog.Written book := by
  have hdisk : e.restart.catalog.archive.disk = e.catalog.archive.disk :=
    restart_disk h.holds.calm.root
  exact ⟨h.plain.congr rfl rfl, h.holds.congr hdisk rfl rfl, fun x d hx => by cases hx⟩

/-! ## Commands -/

theorem execute_leads (h : e.catalog.Written book) (he : e.Chosen) {standing : List Text}
    (hst : book.Covers standing) (command : Text) (id : Option Text) :
    ∃ book', (e.execute command id).2.Chosen ∧
      e.catalog.Leads book (e.execute command id).2.catalog book' ∧
      book'.Covers (e.standing standing (.command command id)) := by
  cases hid : e.session id with
  | error f =>
    refine ⟨book, ?_, ?_, ?_⟩
    · simpa only [execute, hid] using he.record .unknown false
    · simpa only [execute, hid, record_catalog] using (Catalog.Follows.refl h).leads
    · have hs : e.standing standing (.command command id) = standing := by
        simp only [Engine.standing, execute, hid]
        cases Statement.ofCommand command with
        | error f => rfl
        | ok s => cases s <;> rfl
      rwa [hs]
  | ok sess =>
    cases hs : Statement.ofCommand command with
    | error f =>
      refine ⟨book, ?_, ?_, ?_⟩
      · simpa only [execute, hid, hs] using he.record .unknown false
      · simpa only [execute, hid, hs, record_catalog] using (Catalog.Follows.refl h).leads
      · simpa only [Engine.standing, hs] using hst
    | ok s =>
      obtain ⟨r, e', book', hrun, he', hl, hc⟩ :=
        perform_leads h he (Statement.ofCommand_named hs) hst (id.getD defaultId)
      have hex := execute_run hid hs hrun
      have hso : (⟨s.label, r⟩ : Outcome).success = r.isOk := by cases r <;> rfl
      refine ⟨book', ?_, ?_, ?_⟩
      · rw [hex]
        refine Chosen.record ?_ _ _
        cases r with
        | error f => exact he'
        | ok result => exact he'.withSession _ fun s x hx => .inl hx
      · rw [hex]
        cases r with
        | error f => exact hl
        | ok result => simpa only [onSuccess, record_catalog, withSession_catalog] using hl
      · simpa only [Engine.standing, hs, hex, hso] using hc

/-- Every event leads to a book about the databases that then stand. -/
theorem after_leads (h : e.catalog.Written book) (he : e.Chosen) {standing : List Text}
    (hst : book.Covers standing) (v : Event) :
    ∃ book', (e.after v).Chosen ∧ e.catalog.Leads book (e.after v).catalog book' ∧
      book'.Covers (e.standing standing v) := by
  cases v with
  | command text id => exact execute_leads h he hst text id
  | openSession => exact ⟨book, he.openSession, (Catalog.Follows.refl h).leads, hst⟩
  | closeSession id =>
    refine ⟨book, he.closeSession id, ?_, hst⟩
    rw [after, closeSession_catalog]
    exact (Catalog.Follows.refl h).leads
  | restart => exact ⟨book, restart_chosen e, ⟨restart_written h, rfl, fun _ _ _ => rfl⟩, hst⟩

end Engine

end Tabular
