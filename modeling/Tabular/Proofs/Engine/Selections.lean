import Tabular.Proofs.Catalog.Resident
import Tabular.Proofs.Engine.Ids
import Tabular.Proofs.Engine.Sessions
import Tabular.Proofs.Engine.Sound

/-!
# Selections

What a session has selected is told by the run so far: it is the database of its last USE that
succeeded, unless that was dropped since, in whatever session, or the session is another one by now.
The database is resident and has its directory, so that no statement about tables looks for it in
vain.
-/

namespace Tabular

open Tabular.Action

namespace Engine

variable {e : Engine} {id x : Text} {s : Statement} {v : Happening} {hs : List Happening}

/-! ## What a run says about selections -/

/-- Does a USE of the database succeed, in some session? -/
def uses (e : Engine) (x : Text) : Happening → Bool
  | .event v =>
    match e.carried? v with
    | some (_, .use y) => y = x
    | _ => false
  | .weather _ => false

/-- Does a USE of the database succeed in the session? -/
def selects (e : Engine) (id x : Text) : Happening → Bool
  | .event (.command text key) =>
    key.getD defaultId = id && e.uses x (.event (.command text key))
  | _ => false

/-- Does a DROP DATABASE of the database succeed, in some session? -/
def removes (e : Engine) (x : Text) : Happening → Bool
  | .event v =>
    match e.carried? v with
    | some (_, .dropDatabase y) => y = x
    | _ => false
  | .weather _ => false

/-- Does the happening leave the session with the database that it has selected? It does not if a
USE succeeds in the session, if the database is dropped, or if the session is closed or a new one. -/
def spares (e : Engine) (id x : Text) : Happening → Bool
  | .event (.command text key) =>
    match e.carried? (.command text key) with
    | some (_, .use _) => key.getD defaultId ≠ id
    | some (_, .dropDatabase y) => y ≠ x
    | _ => true
  | .event .openSession => e.openSession.1 ≠ id
  | .event (.closeSession key) => key ≠ id || id = defaultId
  | .event .restart => false
  | .weather _ => true

def sparesAll (e : Engine) (id x : Text) : List Happening → Bool
  | [] => true
  | v :: hs => e.spares id x v && (e.meet v).sparesAll id x hs

/-- No USE of the database succeeds in the run. -/
def unused (e : Engine) (x : Text) : List Happening → Bool
  | [] => true
  | v :: hs => !e.uses x v && (e.meet v).unused x hs

/-! ## One happening -/

theorem selection_eq_of_sessions {e' : Engine} (h : e'.sessions = e.sessions) (id : Text) :
    e'.selection id = e.selection id := by
  rw [selection, h]
  rfl

/-- What a statement that succeeds makes of the selections. -/
theorem selection_reseated_iff {key : Text} {sess : Session}
    (hkey : e.sessions.get? key = some sess) :
    (e.reseated key s).selection id = some x ↔
      (key = id ∧ s = .use x) ∨ e.selection id = some x ∧
        (∀ y, s = .use y → key ≠ id) ∧ s ≠ .dropDatabase x := by
  cases s with
  | use y =>
    rw [reseated, selection_withSession, hkey]
    by_cases h : key = id
    · simp [h]
    · simp [h]
  | dropDatabase y =>
    simp only [reseated, selection, forgetting, OrderedMap.get?_map]
    cases e.sessions.get? id with
    | none => simp
    | some t =>
      by_cases ht : t.database = some y
      · simp [ht, eq_comm]
      · have hy : ∀ x, t.database = some x → y ≠ x := fun x hx h => ht (h ▸ hx)
        simpa [ht] using hy x
  | _ => simp [reseated]

/-- After a command a session has a database selected if it used it, or had it selected and was
spared. -/
theorem Steady.selection_execute_iff (h : e.Steady) (text : Text) (key : Option Text) :
    (e.execute text key).2.selection id = some x ↔
      e.selects id x (.event (.command text key)) ∨
        e.selection id = some x ∧ e.spares id x (.event (.command text key)) := by
  obtain ⟨⟨f, -, hout⟩, -, hsess⟩ | ⟨s, r, e', hread, hcomes, hex⟩ := h.execute_cases text key
  · have hc : e.carried? (.command text key) = none := by
      cases hread : Statement.ofCommand text <;> simp [carried?, hread, hout, Outcome.success]
    simp [selects, uses, spares, hc, selection_eq_of_sessions hsess]
  cases hcomes with
  | @fails f e' disk r honest turns does sessions =>
    have hc : e.carried? (.command text key) = none := by
      simp [carried?, hread, hex, Outcome.success]
    have hsess : (e.execute text key).2.sessions = e.sessions := by
      rw [hex]
      exact sessions
    simp [selects, uses, spares, hc, selection_eq_of_sessions hsess]
  | @succeeds result e' disk r honest turns does sessions =>
    have hc : e.carried? (.command text key) = some (e.selection (key.getD defaultId), s) := by
      simp [carried?, hread, hex, Outcome.success]
    have hkey : ∃ sess, e.sessions.get? (key.getD defaultId) = some sess := by
      cases hid : e.session key with
      | error cause =>
        have hout : (e.execute text key).1.result = .error (.rejected cause) := by
          simp only [Engine.execute, hid]
        rw [hex] at hout
        cases hout
      | ok sess =>
        exact ⟨sess, session_eq_ok_iff.1 hid⟩
    obtain ⟨sess, hkey⟩ := hkey
    have hsel : (e.execute text key).2.selection id =
        (e.reseated (key.getD defaultId) s).selection id := by
      rw [hex]
      exact (selection_counted e' _ id).trans (selection_eq_of_sessions sessions id)
    rw [hsel, selection_reseated_iff hkey]
    cases s <;> simp [selects, uses, spares, hc, and_comm]

theorem selection_start (o : Options) (disk : Disk) (id : Text) :
    (start o disk).selection id = none := by
  simp only [selection, start, OrderedMap.get?_put]
  split <;> rfl

theorem Steady.selection_meet_iff (h : e.Steady) (v : Happening) :
    (e.meet v).selection id = some x ↔
      e.selects id x v ∨ e.selection id = some x ∧ e.spares id x v := by
  cases v with
  | weather w =>
    have hsel : (e.meet (.weather w)).selection id = e.selection id := rfl
    simp [hsel, selects, spares]
  | event v =>
    cases v with
    | command text key => exact h.selection_execute_iff text key
    | openSession =>
      have hsel : (e.meet (.event .openSession)).selection id =
          if e.openSession.1 = id then none else e.selection id := by
        simp only [Engine.meet, Engine.after, selection, Engine.openSession, OrderedMap.get?_put]
        by_cases hid : sessionId (e.opened + 1) = id <;> simp [hid]
      rw [hsel]
      split <;> simp_all [selects, spares]
    | closeSession key =>
      have hsel : (e.meet (.event (.closeSession key))).selection id =
          if key ≠ defaultId ∧ key = id then none else e.selection id := by
        simp only [Engine.meet, Engine.after, selection, Engine.closeSession]
        by_cases hkey : key = defaultId
        · simp [hkey]
        · simp only [hkey, if_false, OrderedMap.get?_erase, ne_eq, not_false_eq_true, true_and]
          split <;> rfl
      rw [hsel]
      by_cases hkey : key = id
      · by_cases hid : id = defaultId <;> simp [hkey, hid, selects, spares]
      · simp [hkey, selects, spares]
    | restart =>
      have hsel : (e.meet (.event .restart)).selection id = none := selection_start _ _ id
      simp [hsel, selects, spares]

/-! ## Runs -/

/-- After a run a session has a database selected if it used it in the run and was spared from then
on, or had it selected before and was spared in the whole run. -/
theorem Steady.selection_meetAll_iff (h : e.Steady) (hs : List Happening) :
    (e.meetAll hs).selection id = some x ↔
      (∃ us v ws, hs = us ++ v :: ws ∧ (e.meetAll us).selects id x v ∧
        ((e.meetAll us).meet v).sparesAll id x ws) ∨
      e.selection id = some x ∧ e.sparesAll id x hs := by
  induction hs generalizing e with
  | nil => simp [sparesAll]
  | cons v hs ih =>
    rw [meetAll_cons, ih (h.meet v), h.selection_meet_iff v]
    constructor
    · rintro (⟨us, w, ws, rfl, hw, hws⟩ | ⟨hv | ⟨hsel, hv⟩, hhs⟩)
      · exact .inl ⟨v :: us, w, ws, rfl, hw, hws⟩
      · exact .inl ⟨[], v, hs, rfl, hv, hhs⟩
      · exact .inr ⟨hsel, by simp [sparesAll, hv, hhs]⟩
    · rintro (⟨us, w, ws, heq, hw, hws⟩ | ⟨hsel, hspares⟩)
      · cases us with
        | nil =>
          obtain ⟨rfl, rfl⟩ := List.cons.inj heq
          exact .inr ⟨.inl hw, hws⟩
        | cons u us =>
          obtain ⟨rfl, rfl⟩ := List.cons.inj heq
          exact .inl ⟨us, w, ws, rfl, hw, hws⟩
      · simp only [sparesAll, Bool.and_eq_true] at hspares
        exact .inr ⟨.inr ⟨hsel, hspares.1⟩, hspares.2⟩

theorem uses_of_selects (h : e.selects id x v) : e.uses x v := by
  cases v with
  | weather w => cases h
  | event v =>
    cases v with
    | command text key =>
      simp only [selects, Bool.and_eq_true] at h
      exact h.2
    | _ => cases h

/-- A database that no session has selected and none uses is not selected after the run. -/
theorem Steady.unselected_meetAll (h : e.Steady) (hnone : ∀ id, e.selection id ≠ some x)
    (hunused : e.unused x hs) (id : Text) : (e.meetAll hs).selection id ≠ some x := by
  induction hs generalizing e with
  | nil => exact hnone id
  | cons v hs ih =>
    simp only [unused, Bool.and_eq_true, Bool.not_eq_true'] at hunused
    refine ih (h.meet v) (fun id' hsel => ?_) hunused.2
    obtain hv | ⟨hsel, -⟩ := (h.selection_meet_iff v).1 hsel
    · rw [uses_of_selects hv] at hunused
      cases hunused.1
    · exact hnone id' hsel

/-- Once a database is dropped, no session has it selected. -/
theorem Steady.unselected_of_removes (h : e.Steady) (hv : e.removes x v) (id : Text) :
    (e.meet v).selection id ≠ some x := by
  intro hsel
  cases v with
  | weather w => cases hv
  | event v =>
    obtain ⟨y, hc⟩ : ∃ y, e.carried? v = some (y, .dropDatabase x) := by
      simp only [removes] at hv
      split at hv
      · next y z hc =>
        simp only [decide_eq_true_eq] at hv
        exact ⟨_, hv ▸ hc⟩
      · cases hv
    rw [h.selection_meet_iff] at hsel
    cases v with
    | command text key => simp [selects, uses, spares, hc] at hsel
    | _ => cases hc

theorem meet_has_defaultId (h : e.sessions.has defaultId) (v : Happening) :
    (e.meet v).sessions.has defaultId := by
  cases v with
  | weather w => exact h
  | event v =>
    cases v with
    | command text key => exact (execute_sameOpen e text key defaultId).trans h
    | openSession =>
      change e.openSession.2.sessions.has defaultId
      rw [openSession_has, h, Bool.or_true]
    | closeSession key =>
      change (e.closeSession key).2.sessions.has defaultId
      by_cases hkey : key = defaultId
      · simpa [closeSession, hkey] using h
      · rw [closeSession_has hkey, h]
        simpa using hkey
    | restart => rfl

theorem meetAll_has_defaultId (h : e.sessions.has defaultId) (hs : List Happening) :
    (e.meetAll hs).sessions.has defaultId := by
  induction hs generalizing e with
  | nil => exact h
  | cons v hs ih => exact ih (meet_has_defaultId h v)

/-! ## Statements about tables -/

/-- Work for a session that has a resident database selected, which it never looks for in vain. -/
abbrev Knows (id x : Text) {α : Type} (w : Work α) : Prop :=
  Ensures (fun e : Engine => e.selection id = some x ∧ e.catalog.resident.has x) (fun _ => True)
    Failure.KnowsDatabase w

section Knows

variable {α β : Type} {t : Text}

theorem knows_onCatalog {w : Catalog.Work α} (hw : Catalog.Knows x w) : Knows id x (onCatalog w) :=
  ensures_within hw (fun _ he => he.2) fun _ _ hc he => ⟨he.1, hc⟩

theorem ensures_selected_eq : Ensures
    (fun e : Engine => e.selection id = some x ∧ e.catalog.resident.has x) (· = x)
    Failure.KnowsDatabase (selected id) := by
  intro e he
  rw [selected_some he.1]
  exact ⟨he, rfl⟩

theorem ensures_selectedTable_eq : Ensures
    (fun e : Engine => e.selection id = some x ∧ e.catalog.resident.has x) (·.1 = x)
    Failure.KnowsDatabase (selectedTable id t) := by
  refine ensures_bind ensures_selected_eq ?_
  rintro _ rfl
  exact ensures_bind (knows_onCatalog (Catalog.knows_table t)) fun _ _ => ensures_pure rfl

theorem edit_confined (s : Statement) (old : Table) : Table.Confined (s.edit old) := by
  cases s with
  | use x | createDatabase x | dropDatabase x | createTable t columns | dropTable t
  | join l r lc rc => trivial
  | alterTable t action column =>
    cases action with
    | add => exact Table.confined_bind (old.confined_addColumn column) fun _ => trivial
    | drop => exact Table.confined_bind (old.confined_dropColumn column) fun _ => trivial
  | insert t values => exact Table.confined_bind (old.confined_insert values) fun _ => trivial
  | select t columns condition =>
    exact Table.confined_bind (old.confined_select condition) fun rows =>
      Table.confined_bind (old.confined_project rows columns) fun _ => trivial
  | update t assignments condition =>
    exact Table.confined_bind (old.confined_update condition assignments) fun _ => trivial
  | delete t condition => exact Table.confined_bind (old.confined_delete condition) fun _ => trivial

theorem knows_give {y : Except Failure α} (h : Table.Confined y) : Knows id x (give y) :=
  ensures_give (h.mono (fun _ h => h) fun _ h => h.knowsDatabase)

theorem knows_perform_table (hs : s.table? = some t) : Knows id x (perform id s) := by
  rw [perform_table_eq hs]
  refine ensures_bind ensures_selectedTable_eq ?_
  rintro ⟨_, old⟩ rfl
  exact ensures_bind (knows_give (edit_confined s old)) fun r _ =>
    ensures_bind (knows_onCatalog (Catalog.knows_carry r.2)) fun _ _ => ensures_pure trivial

theorem knows_perform (hs : s.isLocal) : Knows id x (perform id s) := by
  cases s with
  | use y | createDatabase y | dropDatabase y => cases hs
  | createTable t columns =>
    refine ensures_bind ensures_selected_eq ?_
    rintro _ rfl
    exact ensures_bind (knows_onCatalog (Catalog.knows_createTable t columns))
      fun _ _ => ensures_pure trivial
  | dropTable t =>
    refine ensures_bind ensures_selected_eq ?_
    rintro _ rfl
    exact ensures_bind (knows_onCatalog (Catalog.knows_dropTable t)) fun _ _ => ensures_pure trivial
  | join left right leftColumn rightColumn =>
    refine ensures_bind ensures_selected_eq ?_
    rintro _ rfl
    exact ensures_bind (knows_onCatalog (Catalog.knows_table left)) fun l _ =>
      ensures_bind (knows_onCatalog (Catalog.knows_table right)) fun r _ =>
        ensures_bind (knows_give (Table.confined_join l r leftColumn rightColumn)) fun _ _ =>
          ensures_pure trivial
  | alterTable t action column => exact knows_perform_table rfl
  | insert t values => exact knows_perform_table rfl
  | select t columns condition => exact knows_perform_table rfl
  | update t assignments condition => exact knows_perform_table rfl
  | delete t condition => exact knows_perform_table rfl

end Knows

/-- A statement about tables fails for want of a selection, but never for want of the database that
is selected. -/
theorem Steady.execute_knows (h : e.Steady) {command : Text}
    (hread : Statement.ofCommand command = .ok s) (hs : s.isLocal) (key : Option Text) (n : Text) :
    (e.execute command key).1.result ≠ .error (.rejected (.unknownDatabase n)) := by
  intro hout
  cases hid : e.session key with
  | error cause =>
    simp only [Engine.execute, hid] at hout
    rw [session] at hid
    split at hid <;> cases hid
    cases hout
  | ok sess =>
    cases hrun : (perform (key.getD defaultId) s).run e with
    | mk r e' =>
      rw [execute_run hid hread hrun] at hout
      obtain rfl : r = .error (.rejected (.unknownDatabase n)) := hout
      cases hsel : e.selection (key.getD defaultId) with
      | none =>
        rw [perform_unselected hs hsel] at hrun
        cases hrun
      | some y =>
        have hgives := (knows_perform hs e ⟨hsel, (h.seated _ y hsel).2⟩).2
        exact hgives.of_error (congrArg Prod.fst hrun) n rfl

/-- However a run goes, a selected database is resident and has its directory; a session has the
database of its last USE that succeeded, if it was spared since, and none otherwise; a database that
was dropped is selected by no session until one uses it again; one session is always open; and no
statement about tables fails for want of its database. -/
theorem selections_hold {o : Options} {disk : Disk} (ho : o.Plain) (hd : disk.Proper)
    (hs : List Happening) :
    let first := start o disk
    let e := first.meetAll hs
    (∀ id x, e.selection id = some x →
      e.catalog.resident.has x ∧ e.disk.entries.get? [x] = some .directory) ∧
    (∀ id x, e.selection id = some x ↔ ∃ us v ws, hs = us ++ v :: ws ∧
      (first.meetAll us).selects id x v ∧ ((first.meetAll us).meet v).sparesAll id x ws) ∧
    (∀ x us v ws, hs = us ++ v :: ws → (first.meetAll us).removes x v →
      ((first.meetAll us).meet v).unused x ws → ∀ id, e.selection id ≠ some x) ∧
    e.sessions.has defaultId ∧
    ∀ command s, Statement.ofCommand command = .ok s → s.isLocal → ∀ key n,
      (e.execute command key).1.result ≠ .error (.rejected (.unknownDatabase n)) := by
  intro first e
  have hfirst : first.Steady := start_steady_of_proper ho hd
  have he : e.Steady := hfirst.meetAll hs
  refine ⟨fun id x hx => ?_, fun id x => ?_, ?_, meetAll_has_defaultId rfl hs, ?_⟩
  · have hres := (he.seated id x hx).2
    exact ⟨hres, beq_iff_eq.1 (he.sane.settled.grounded x hres)⟩
  · have hnone : first.selection id = none := selection_start o disk id
    rw [hfirst.selection_meetAll_iff hs, hnone]
    simp
  · rintro x us v ws rfl hv hunused id
    have hus : (first.meetAll us).Steady := hfirst.meetAll us
    have hrun : e = ((first.meetAll us).meet v).meetAll ws := List.foldl_append
    rw [hrun]
    exact (hus.meet v).unselected_meetAll (hus.unselected_of_removes hv) hunused id
  · exact fun command s hread hlocal key n => he.execute_knows hread hlocal key n

/-- A database is used, dropped from another session, made again and used there. -/
theorem selections_hold_of_drop :
    let o : Options := ⟨['.', 't', 'a', 'b'], false, .whole, ['1']⟩
    let hs : List Happening :=
      [.event .openSession, .event (.command "CREATE DATABASE d;".toList none),
        .event (.command "USE d;".toList none),
        .event (.command "DROP DATABASE d;".toList (some (sessionId 1))),
        .event (.command "CREATE DATABASE d;".toList none),
        .event (.command "USE d;".toList (some (sessionId 1)))]
    let e := (start o (Disk.empty ['r'])).meetAll hs
    o.Plain ∧ (Disk.empty ['r']).Proper ∧
      e.selection defaultId = none ∧ e.selection (sessionId 1) = some ['d'] ∧
      e.catalog.resident.has ['d'] ∧ e.disk.entries.get? [['d']] = some .directory := by
  have ho : Options.Plain ⟨['.', 't', 'a', 'b'], false, .whole, ['1']⟩ :=
    ⟨by decide, by decide, by decide⟩
  have hd : (Disk.empty ['r']).Proper := Disk.empty_proper _
  exact ⟨ho, hd, by decide +kernel, by decide +kernel,
    (selections_hold ho hd _).1 (sessionId 1) ['d'] (by decide +kernel)⟩

end Engine

end Tabular
