import Tabular.Proofs.Catalog.Gauge
import Tabular.Proofs.Engine.Commands

/-!
# Open sessions

Sessions come and go only by being opened and closed: whatever a command does to the sessions that
are open, it leaves them open and opens no other.
-/

namespace Tabular.Engine

open Tabular.Action

/-- The same sessions are open. -/
def SameOpen (e e' : Engine) : Prop := ∀ id, e'.sessions.has id = e.sessions.has id

namespace SameOpen

variable {e e' e'' : Engine}

theorem refl (e : Engine) : SameOpen e e := fun _ => rfl

theorem trans (h : SameOpen e e') (h' : SameOpen e' e'') : SameOpen e e'' :=
  fun id => (h' id).trans (h id)

end SameOpen

variable {e : Engine} {id id' : Text}

/-! ## Statements -/

/-- A relation between engines to which the parts of statements keep: work of the catalog, a session
that selects a database, and a database that is forgotten. -/
structure KeptByParts (R : Engine → Engine → Prop) : Prop where
  refl : ∀ e, R e e
  trans : ∀ {e e' e''}, R e e' → R e' e'' → R e e''
  onCatalog : ∀ {α : Type} {w : Catalog.Work α},
    Keeps Catalog.StaysGauged w → Keeps R (onCatalog w)
  select : ∀ id x, Keeps R (changeSession id fun s => { s with database := some x })
  forget : ∀ x, Keeps R (forget x)

namespace KeptByParts

variable {R : Engine → Engine → Prop} (h : KeptByParts R)
include h

theorem selected (id : Text) : Keeps R (selected id) := by
  refine keeps_bind h.trans (keeps_look h.refl _) fun s => ?_
  cases s.bind (·.database) with
  | none => exact keeps_fail h.refl _
  | some d => exact keeps_pure h.refl d

/-- What is done for a session with a table, or two, of its database. -/
theorem selectedTable (id t : Text) : Keeps R (selectedTable id t) :=
  keeps_bind h.trans (h.selected id) fun x =>
    keeps_bind h.trans (h.onCatalog (Catalog.gauged_table x t)) fun _ => keeps_pure h.refl _

theorem keep (x : Text) (t : Table) : Keeps R (keep x t) :=
  keeps_bind h.trans (h.onCatalog (Catalog.gauged_replace x t)) fun _ =>
    h.onCatalog (Catalog.gauged_persist x t)

theorem perform (id : Text) (s : Statement) : Keeps R (perform id s) := by
  have hpure {r : Result} : Keeps R (pure r : Work Result) := keeps_pure h.refl r
  have hgive {α : Type} {x : Except Failure α} : Keeps R (give x : Work α) := keeps_give h.refl x
  have hkeep {n : Nat} {x : Text} {t : Table} {r : Result} :
      Keeps R (do if n ≠ 0 then Engine.keep x t
                  return r : Work Result) := by
    split
    · exact keeps_bind h.trans (h.keep x t) fun _ => hpure
    · exact hpure
  cases s with
  | use x =>
    exact keeps_bind h.trans (h.onCatalog (Catalog.gauged_use x)) fun _ =>
      keeps_bind h.trans (h.select id x) fun _ => hpure
  | createDatabase x =>
    exact keeps_bind h.trans (h.onCatalog (Catalog.gauged_createDatabase x)) fun _ => hpure
  | dropDatabase x =>
    exact keeps_bind h.trans (h.onCatalog (Catalog.gauged_dropDatabase x)) fun _ =>
      keeps_bind h.trans (h.forget x) fun _ => hpure
  | createTable t columns =>
    exact keeps_bind h.trans (h.selected id) fun x =>
      keeps_bind h.trans (h.onCatalog (Catalog.gauged_createTable x t columns)) fun _ => hpure
  | dropTable t =>
    exact keeps_bind h.trans (h.selected id) fun x =>
      keeps_bind h.trans (h.onCatalog (Catalog.gauged_dropTable x t)) fun _ => hpure
  | alterTable t action column =>
    exact keeps_bind h.trans (h.selectedTable id t) fun _ =>
      keeps_bind h.trans hgive fun _ => keeps_bind h.trans (h.keep _ _) fun _ => hpure
  | insert t values =>
    exact keeps_bind h.trans (h.selectedTable id t) fun r =>
      keeps_bind h.trans hgive fun new =>
        keeps_bind h.trans (h.onCatalog (Catalog.gauged_replace r.1 new.2)) fun _ =>
          keeps_bind h.trans (h.onCatalog (Catalog.gauged_persistInsert r.1 new.2 new.1)) fun _ =>
            hpure
  | select t columns condition =>
    exact keeps_bind h.trans (h.selectedTable id t) fun _ =>
      keeps_bind h.trans hgive fun _ => keeps_bind h.trans hgive fun _ => hpure
  | update t assignments condition =>
    exact keeps_bind h.trans (h.selectedTable id t) fun _ =>
      keeps_bind h.trans hgive fun _ => hkeep
  | delete t condition =>
    exact keeps_bind h.trans (h.selectedTable id t) fun _ =>
      keeps_bind h.trans hgive fun _ => hkeep
  | join left right leftColumn rightColumn =>
    exact keeps_bind h.trans (h.selected id) fun x =>
      keeps_bind h.trans (h.onCatalog (Catalog.gauged_table x left)) fun _ =>
        keeps_bind h.trans (h.onCatalog (Catalog.gauged_table x right)) fun _ =>
          keeps_bind h.trans hgive fun _ => hpure

end KeptByParts

theorem withSession_sameOpen (e : Engine) (id : Text) (f : Session → Session) :
    SameOpen e (e.withSession id f) := by
  intro id'
  unfold withSession
  cases h : e.sessions.get? id with
  | none => rfl
  | some s =>
    simp only [OrderedMap.has, OrderedMap.get?_put]
    split
    · next he => rw [← he, h]; rfl
    · rfl

theorem sameOpen_keptByParts : KeptByParts SameOpen where
  refl := SameOpen.refl
  trans := SameOpen.trans
  onCatalog := fun _ _ _ => rfl
  select := fun id _ e => e.withSession_sameOpen id _
  forget := by
    intro x e id
    simp only [Engine.forget, run_change, OrderedMap.has, OrderedMap.get?_map, Option.isSome_map]

theorem keeps_complete (id : Text) (s : Statement) : Keeps SameOpen (complete id s) :=
  keeps_bind SameOpen.trans (sameOpen_keptByParts.perform id s) fun _ =>
    keeps_bind SameOpen.trans (fun e => e.withSession_sameOpen id _) fun _ =>
      keeps_pure SameOpen.refl _

/-- A command opens no session and closes none. -/
theorem execute_sameOpen (e : Engine) (command : Text) (id : Option Text) :
    SameOpen e (e.execute command id).2 := by
  unfold execute
  cases e.session id with
  | error cause => exact SameOpen.refl e
  | ok sess =>
    cases Statement.ofCommand command with
    | error cause => exact SameOpen.refl e
    | ok s => exact keeps_complete _ s e

/-! ## Opening and closing -/

theorem openSession_has (e : Engine) (id : Text) :
    e.openSession.2.sessions.has id = (e.openSession.1 == id || e.sessions.has id) := by
  simp only [openSession, OrderedMap.has, OrderedMap.get?_put]
  split
  · next h => simp [h]
  · next h => simp [h]

/-- The id of a new session is longer than that of the session that is always open. -/
theorem sessionId_ne_defaultId (n : Nat) : sessionId n ≠ defaultId := by
  intro h
  have := congrArg List.length h
  simp only [sessionId, defaultId, List.length_append, List.length_replicate, List.length_cons,
    List.length_nil] at this
  omega

theorem openSession_ne_defaultId (e : Engine) : e.openSession.1 ≠ defaultId :=
  sessionId_ne_defaultId _

theorem closeSession_has (h : id ≠ defaultId) (id' : Text) :
    (e.closeSession id).2.sessions.has id' = (id != id' && e.sessions.has id') := by
  simp only [closeSession, h, if_false, OrderedMap.has, OrderedMap.get?_erase]
  split
  · next h => simp [h]
  · next h => simp [h]

end Tabular.Engine
