import Tabular.Proofs.Catalog.Sound
import Tabular.Proofs.Engine.Weather
import Tabular.Proofs.Statement.Texts

/-!
# Sound engines

An engine is sound if its catalog is and every session has selected a word. It stays sound whatever
happens: whatever the events and the weather are, and whatever is done to the disk from outside.
What a statement shows is then shown in lines, and what goes wrong with it is told, but for the
paths and names of files, with texts within one line and texts of its condition.
-/

namespace Tabular

/-- What may happen to an engine, or from outside to its disk: anything. -/
inductive Turn where
  | happening (h : Happening)
  | outside (disk : Disk)

namespace Engine

open Tabular.Action

variable {e : Engine} {s : Statement}

def take (e : Engine) : Turn → Engine
  | .happening h => e.meet h
  | .outside disk => e.withDisk disk

def takeAll (e : Engine) (turns : List Turn) : Engine := turns.foldl take e

theorem takeAll_happenings (e : Engine) (hs : List Happening) :
    e.takeAll (hs.map .happening) = e.meetAll hs := List.foldl_map

structure Sound (e : Engine) : Prop where
  catalog : e.catalog.Sound
  chosen : e.Chosen

/-! ## Statements -/

variable {α : Type} {P : α → Prop} {Q : Text → Prop} {p : Prop} {id x t : Text}

theorem ensures_onCatalog {E : Failure → Prop} {w : Catalog.Work α}
    (hw : Ensures Catalog.Sound P E w) : Ensures Sound P E (onCatalog w) :=
  ensures_within hw (fun _ he => he.catalog) fun _ _ hc he => ⟨hc, he.chosen⟩

theorem ensures_selected (id : Text) :
    Ensures Sound Name.IsWord (Failure.TidyIf p) (selected id) := by
  have hlook : Ensures Sound (fun s => ∀ x, s.bind (·.database) = some x → Name.IsWord x)
      (Failure.TidyIf p) (look fun e => e.sessions.get? id) := ensures_look fun _ he => he.chosen id
  refine ensures_bind hlook fun s hs => ?_
  split
  · next x hx => exact ensures_pure (hs x hx)
  · exact ensures_fail fun _ => Failure.tidy_of_oneLine nofun

theorem ensures_selectedTable (id : Text) (ht : Name.IsWord t) :
    Ensures Sound (fun r => r.2.Plain) (Failure.TidyIf p) (selectedTable id t) :=
  ensures_bind (ensures_selected id) fun _ hx =>
    ensures_bind (ensures_onCatalog (Catalog.ensures_table hx.oneLine ht.lower_oneLine))
      fun _ hu => ensures_pure hu

theorem ensures_changeSession {E : Failure → Prop} (id : Text) {f : Session → Session}
    (hf : ∀ s x, (f s).database = some x → s.database = some x ∨ Name.IsWord x) :
    Ensures Sound (fun _ => True) E (changeSession id f) := by
  refine ensures_change fun e he => ?_
  change (e.withSession id f).Sound
  exact ⟨(withSession_catalog ..).symm ▸ he.catalog, he.chosen.withSession id hf⟩

theorem ensures_finish (x : Text) (result : Result) {edit : Catalog.Edit}
    (h : ∀ t ∈ edit.table?, t.Sound) :
    Ensures Sound (fun r => r = result) (Failure.Tame p) (finish x result edit) :=
  ensures_bind (ensures_onCatalog (Catalog.ensures_carry x h)) fun _ _ => ensures_pure rfl

/-- A change that a statement asks for puts a sound table into the place of a sound one. -/
theorem sound_of_edit {old : Table} {result : Result} {edit : Catalog.Edit} (ht : old.Sound)
    (h : s.edit old = .ok (result, edit)) : ∀ t ∈ edit.table?, t.Sound :=
  fun _ hmem => ((Statement.edit_fits ht h).table hmem).1

section Telling

variable (hQ : ∀ t : Text, t.OneLine → Q t)
include hQ

theorem ensures_tells {w : Work α} (h : Ensures Sound P (Failure.TidyIf p) w) :
    Ensures Sound P (Failure.TellsIf Q p) w :=
  h.mono (fun _ h => h) fun _ h hp => (h hp).mono hQ

/-- What a statement shows of a plain table is legible. -/
theorem edit_gives {old : Table} (ht : old.Plain) (hs : s.Tells Q) : (s.edit old).Gives
    (fun r => Table.Legible r.1.header r.1.rows) (Failure.Tells Q) := by
  cases s with
  | use x | createDatabase x | dropDatabase x | createTable t columns | dropTable t
  | join l r lc rc => exact .nil
  | alterTable t action column =>
    have hc : Name.isPlain column := hs
    cases action with
    | add => exact (Condition.gives_tells hQ (old.addColumn_gives hc)).bind fun _ _ => .nil
    | drop =>
      have hdrop := Table.dropColumn_gives ht.name_line (Name.oneLine_of_isPlain hc)
      exact (Condition.gives_tells hQ hdrop).bind fun _ _ => .nil
  | insert t values =>
    exact (Condition.gives_tells hQ (old.insert_gives values)).bind fun _ _ => .nil
  | select t columns condition =>
    exact (Table.select_gives hQ ht.toSound hs.2).bind fun _ hrows =>
      (Condition.gives_tells hQ (Table.project_gives ht hrows hs.1)).bind fun _ h => h
  | update t assignments condition =>
    have ha : ∀ a ∈ assignments, Text.OneLine a.1 := fun a ha => Name.oneLine_of_isPlain (hs.1 a ha)
    exact (Table.update_gives hQ ht hs.2 ha).bind fun _ _ => .nil
  | delete t condition => exact (Table.delete_gives hQ ht.toSound hs).bind fun _ _ => .nil

omit hQ in
/-- A statement about one table finds the table, works the change out and carries it out. -/
theorem perform_table_eq (hs : s.table? = some t) (id : Text) :
    perform id s = (do
      let (x, old) ← selectedTable id t
      let (result, edit) ← give (s.edit old)
      finish x result edit) := by
  funext e
  change (perform id s).run e = Action.run _ e
  cases hsel : (selectedTable id t).run e with
  | mk r e' =>
    cases r with
    | error f =>
      rw [run_bind_error hsel]
      cases s <;> cases hs <;> exact run_bind_error hsel
    | ok r =>
      obtain ⟨x, old⟩ := r
      rw [perform_edit hs hsel, run_bind_ok hsel, run_bind, run_give]
      cases s.edit old <;> rfl

theorem ensures_perform_table (hs : s.table? = some t) (ht : Name.IsWord t) (id : Text) :
    Ensures Sound (fun r => s.Tells Q → Table.Legible r.header r.rows)
      (Failure.TellsIf Q (s.Tells Q)) (perform id s) := by
  rw [perform_table_eq hs]
  refine ensures_bind (ensures_tells hQ (ensures_selectedTable id ht)) fun r hr => ?_
  obtain ⟨x, old⟩ := r
  have hedit : (s.edit old).Gives (fun r => (∀ t ∈ r.2.table?, t.Sound) ∧
      (s.Tells Q → Table.Legible r.1.header r.1.rows)) (Failure.TellsIf Q (s.Tells Q)) :=
    (Except.gives_given (edit_gives hQ hr)).of_eq_ok fun r h =>
      ⟨sound_of_edit hr.toSound h, fun hs => (edit_gives hQ hr hs).of_ok h⟩
  refine ensures_bind (ensures_give hedit) fun r hr => ?_
  refine (ensures_tells hQ (ensures_finish x r.1 hr.1).tidy).mono (fun _ h => ?_) fun _ h => h
  exact h ▸ hr.2

/-- Whatever a statement is about, a sound engine stays sound. -/
theorem ensures_perform (hs : s.Named) (id : Text) :
    Ensures Sound (fun r => s.Tells Q → Table.Legible r.header r.rows)
      (Failure.TellsIf Q (s.Tells Q)) (perform id s) := by
  have hdone {p : Prop} {E : Failure → Prop} (message : Message) :
      Ensures Sound (fun r => p → Table.Legible r.header r.rows) E
        (pure (.done message) : Work Result) := ensures_pure fun _ => .nil
  cases s with
  | use x =>
    have hx : Name.IsWord x := hs
    refine ensures_bind (ensures_tells hQ (ensures_onCatalog (Catalog.ensures_use hx.oneLine)))
      fun _ _ => ensures_bind (ensures_changeSession id ?_) fun _ _ => hdone _
    rintro _ y ⟨⟩
    exact .inr hx
  | createDatabase x =>
    have hx : Name.IsWord x := hs
    exact ensures_bind (ensures_tells hQ
      (ensures_onCatalog (Catalog.ensures_createDatabase hx.oneLine)).tidy) fun _ _ => hdone _
  | dropDatabase x =>
    have hx : Name.IsWord x := hs
    refine ensures_bind (ensures_tells hQ
      (ensures_onCatalog (Catalog.ensures_dropDatabase hx.oneLine)).tidy) fun _ _ =>
      ensures_bind (ensures_change fun e he => ?_) fun _ _ => hdone _
    exact ⟨he.catalog, he.chosen.forgetting x⟩
  | createTable t columns =>
    refine ensures_bind (ensures_tells hQ (ensures_selected id)) fun x hx => ?_
    exact ensures_bind (ensures_tells hQ
      (ensures_onCatalog (Catalog.ensures_createTable hx.oneLine t columns))) fun _ _ => hdone _
  | dropTable t =>
    have ht : Name.IsWord t := hs
    refine ensures_bind (ensures_tells hQ (ensures_selected id)) fun x hx => ?_
    exact ensures_bind (ensures_tells hQ
      (ensures_onCatalog (Catalog.ensures_dropTable hx.oneLine ht.lower_oneLine))) fun _ _ =>
      hdone _
  | join left right leftColumn rightColumn =>
    obtain ⟨hl, hr⟩ : Name.IsWord left ∧ Name.IsWord right := hs
    refine ensures_bind (ensures_tells hQ (ensures_selected id)) fun x hx =>
      ensures_bind (ensures_tells hQ
        (ensures_onCatalog (Catalog.ensures_table hx.oneLine hl.lower_oneLine))) fun l hl =>
      ensures_bind (ensures_tells hQ
        (ensures_onCatalog (Catalog.ensures_table hx.oneLine hr.lower_oneLine))) fun r hr => ?_
    have hjoin (h : Name.isPlain leftColumn ∧ Name.isPlain rightColumn) :=
      Condition.gives_tells hQ
        (Join.join_gives hl hr (Name.oneLine_of_isPlain h.1) (Name.oneLine_of_isPlain h.2))
    exact ensures_bind (ensures_give (Except.gives_given hjoin)) fun _ h => ensures_pure h
  | alterTable t action column => exact ensures_perform_table hQ rfl hs id
  | insert t values => exact ensures_perform_table hQ rfl hs id
  | select t columns condition => exact ensures_perform_table hQ rfl hs id
  | update t assignments condition => exact ensures_perform_table hQ rfl hs id
  | delete t condition => exact ensures_perform_table hQ rfl hs id

theorem ensures_complete (hs : s.Named) (id : Text) :
    Ensures Sound (fun r => s.Tells Q → Table.Legible r.header r.rows)
      (Failure.TellsIf Q (s.Tells Q)) (complete id s) :=
  ensures_bind (ensures_perform hQ hs id) fun _ hr =>
    ensures_bind (ensures_changeSession id fun _ _ hx => .inl hx) fun _ _ => ensures_pure hr

/-- What a command comes to is legible, or it is told with texts of the command, the id of the
session and texts within one line. -/
theorem Sound.execute_gives (he : e.Sound) {command : Text} {key : Option Text}
    (hc : (Statement.ofCommand command).Gives (Statement.Tells Q) fun e => ∀ t ∈ e.texts, Q t)
    (hkey : Q (key.getD defaultId)) : (e.execute command key).1.result.Gives
      (fun r => Table.Legible r.header r.rows) (Failure.Tells Q) := by
  unfold Engine.execute
  split
  · next cause hcause =>
    have hcause' : cause = .unknownSession (key.getD defaultId) := by
      simp only [session] at hcause
      split at hcause <;> cases hcause
      rfl
    subst hcause'
    exact Failure.tells_of_texts (List.forall_mem_singleton.2 hkey)
  · split
    · next cause hcause => exact Failure.tells_of_texts (hc.of_error hcause)
    · next s hs =>
      have hline := hc.of_ok hs
      exact (ensures_complete hQ (Statement.ofCommand_named hs) _ e he).2.mono
        (fun _ h => h hline) fun _ h => h hline

end Telling

/-! ## Turns -/

theorem Sound.execute (he : e.Sound) (command : Text) (id : Option Text) :
    (e.execute command id).2.Sound := by
  unfold Engine.execute
  split
  · exact ⟨he.catalog, he.chosen.record _ _⟩
  · split
    · exact ⟨he.catalog, he.chosen.record _ _⟩
    · next s hs =>
      have h := (ensures_complete (fun _ h => h) (Statement.ofCommand_named hs)
        (id.getD defaultId) e he).1
      exact ⟨h.catalog, h.chosen.record _ _⟩

theorem start_sound {o : Options} (ho : o.suffix ≠ []) (disk : Disk) : (start o disk).Sound := by
  refine ⟨⟨ho, nofun⟩, fun id x hx => ?_⟩
  simp only [selection, start, OrderedMap.get?_put] at hx
  split at hx <;> cases hx

theorem Sound.take (he : e.Sound) (turn : Turn) : (e.take turn).Sound := by
  cases turn with
  | outside disk => exact ⟨⟨he.catalog.suffixed, he.catalog.resident⟩, he.chosen⟩
  | happening h =>
    cases h with
    | weather w => exact ⟨⟨he.catalog.suffixed, he.catalog.resident⟩, he.chosen⟩
    | event v =>
      cases v with
      | command text id => exact he.execute text id
      | openSession => exact ⟨he.catalog, he.chosen.openSession⟩
      | closeSession id =>
        exact ⟨(closeSession_catalog e id).symm ▸ he.catalog, he.chosen.closeSession id⟩
      | restart => exact start_sound (o := ⟨_, _, _, _⟩) he.catalog.suffixed _

/-- However the turns go, a sound engine stays sound. -/
theorem Sound.takeAll (he : e.Sound) (turns : List Turn) : (e.takeAll turns).Sound := by
  induction turns generalizing e with
  | nil => exact he
  | cons turn turns ih => exact ih (he.take turn)

end Engine

end Tabular
