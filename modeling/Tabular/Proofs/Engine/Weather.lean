import Tabular.Proofs.Engine.InStep
import Tabular.Proofs.Engine.Refused

/-!
# Runs in any weather

The weather is what the disk refuses from now on, and what the names of temporary files hold. A run
is made of events, between which the weather may change at any time. Whatever happens, an engine
stays steady.
-/

namespace Tabular

/-- What deters calls to the disk: refusals that do not say that something is missing, which only
the tree can tell. -/
structure Weather where
  refusals : List (Option Errno)
  stamp : Text
  honest : ∀ e, some e ∈ refusals → e.saysMissing = false
  plain : '/' ∉ stamp ∧ '\x00' ∉ stamp

inductive Happening where
  | event (v : Event)
  | weather (w : Weather)

namespace Engine

def weathered (e : Engine) (w : Weather) : Engine :=
  { e with catalog := { e.catalog with archive := { e.catalog.archive with
      disk := { e.catalog.archive.disk with refusals := w.refusals }, stamp := w.stamp } } }

def meet (e : Engine) : Happening → Engine
  | .event v => e.after v
  | .weather w => e.weathered w

def meetAll (e : Engine) (hs : List Happening) : Engine := hs.foldl meet e

/-- What the commands among happenings come to, one after the other. -/
def answers (e : Engine) : List Happening → List Outcome
  | [] => []
  | .event (.command text id) :: hs =>
    (e.execute text id).1 :: answers (e.meet (.event (.command text id))) hs
  | h :: hs => answers (e.meet h) hs

variable {e e' : Engine} {id x y : Text} {s : Statement} {command : Text}

@[simp] theorem meetAll_nil (e : Engine) : e.meetAll [] = e := rfl

@[simp] theorem meetAll_cons (e : Engine) (h : Happening) (hs : List Happening) :
    e.meetAll (h :: hs) = (e.meet h).meetAll hs := rfl

/-! ## Selections -/

theorem selection_withSession (e : Engine) (id id' : Text) (f : Session → Session) :
    (e.withSession id f).selection id' =
      if id = id' then (e.sessions.get? id).bind fun s => (f s).database
      else e.selection id' := by
  unfold withSession selection
  cases hs : e.sessions.get? id with
  | none =>
    by_cases h : id = id'
    · rw [if_pos h, ← h, hs]
      rfl
    · rw [if_neg h]
  | some s =>
    simp only [OrderedMap.get?_put]
    split <;> rfl

/-- A selection after a statement was there before, or the statement made it. -/
theorem selection_reseated {id' : Text} (h : (e.reseated id s).selection id' = some y) :
    e.selection id' = some y ∧ s ≠ .dropDatabase y ∨ s = .use y := by
  cases s with
  | use x =>
    rw [reseated, selection_withSession] at h
    split at h
    · obtain ⟨_, -, h⟩ := Option.bind_eq_some_iff.1 h
      cases h
      exact .inr rfl
    · exact .inl ⟨h, by rintro ⟨⟩⟩
  | dropDatabase x =>
    simp only [reseated, selection, forgetting, OrderedMap.get?_map] at h
    cases hs : e.sessions.get? id' with
    | none => simp [hs] at h
    | some sess =>
      simp only [hs, Option.map_some, Option.bind_some] at h
      split at h
      · cases h
      · next hne =>
        refine .inl ⟨by rw [selection, hs]; exact h, ?_⟩
        rintro ⟨⟩
        exact hne h
  | _ => exact .inl ⟨h, by rintro ⟨⟩⟩

/-! ## Steadiness -/

/-- An engine with the same catalog and no other selections is as steady. -/
theorem Steady.congr (h : e.Steady) (hc : e'.catalog = e.catalog)
    (hs : ∀ id x, e'.selection id = some x → e.selection id = some x) : e'.Steady where
  honest := by rw [hc]; exact h.honest
  sane := by rw [hc]; exact h.sane
  seated := by
    intro id x hx
    rw [hc]
    exact h.seated id x (hs id x hx)

/-- Whatever comes of a statement, the engine is steady. -/
theorem Steady.of_comes (h : e.Steady) (hn : s.Named) {r : Except Failure Result}
    (hc : e.Comes id s r e') : e'.Steady := by
  -- The session that the statement is for may select another database, and the others lose theirs
  -- only when it is dropped: what is selected stays resident.
  cases hc with
  | @succeeds result e' disk r honest turns does sessions =>
    refine ⟨honest, h.sane.succeeds hn does turns, fun id' y hy => ?_⟩
    have hres : e'.catalog.resident = r := turns.resident
    rw [selection, sessions] at hy
    rw [hres]
    obtain ⟨hy, hne⟩ | rfl := selection_reseated hy
    · exact ⟨(h.seated id' y hy).1, does.has (h.seated id' y hy).2 hne⟩
    · exact ⟨hn, does.has_used⟩
  | @fails f e' disk r honest turns does sessions =>
    refine ⟨honest, h.sane.fails hn does turns, fun id' y hy => ?_⟩
    have hres : e'.catalog.resident = r := turns.resident
    rw [selection, sessions] at hy
    rw [hres]
    exact ⟨(h.seated id' y hy).1, does.has (h.seated id' y hy).2⟩

theorem selection_counted (e : Engine) (id id' : Text) :
    (e.withSession id fun s => { s with executed := s.executed + 1 }).selection id' =
      e.selection id' := by
  rw [selection_withSession]
  split
  · next h => rw [← h]; rfl
  · rfl

/-- What comes of a command: nothing, if there is no session or no statement, or what comes of its
statement, which is counted if it succeeds. -/
theorem Steady.execute_cases (h : e.Steady) (command : Text) (id : Option Text) :
    ((∃ f, (e.session id = .error f ∨ Statement.ofCommand command = .error f) ∧
        (e.execute command id).1 = ⟨.unknown, .error (.rejected f)⟩) ∧
      (e.execute command id).2.catalog = e.catalog ∧
      (e.execute command id).2.sessions = e.sessions) ∨
    ∃ s r e', Statement.ofCommand command = .ok s ∧ e.Comes (id.getD defaultId) s r e' ∧
      e.execute command id = (⟨s.label, r⟩,
        (e'.onSuccess r fun e => e.withSession (id.getD defaultId)
          fun s => { s with executed := s.executed + 1 }).record s.label r.isOk) := by
  cases hid : e.session id with
  | error cause => exact .inl ⟨⟨cause, .inl rfl, by simp only [execute, hid]⟩,
      by simp only [execute, hid]; rfl, by simp only [execute, hid]; rfl⟩
  | ok sess =>
    cases hs : Statement.ofCommand command with
    | error cause => exact .inl ⟨⟨cause, .inr rfl, by simp only [execute, hid, hs]⟩,
        by simp only [execute, hid, hs]; rfl, by simp only [execute, hid, hs]; rfl⟩
    | ok s => exact .inr ⟨s, _, _, rfl, h.comes (Statement.ofCommand_named hs) _,
        execute_run hid hs rfl⟩

/-- What a command makes of the catalog: nothing, or what its statement makes of it. -/
theorem Steady.execute_catalog (h : e.Steady) (command : Text) (id : Option Text) :
    ∃ disk r, e.catalog.Turns disk r (e.execute command id).2.catalog ∧
      ((∃ f, (e.execute command id).1 = ⟨.unknown, .error f⟩) ∧
          disk = e.catalog.calmed.archive.disk ∧ r = e.catalog.resident ∨
        ∃ s, Statement.ofCommand command = .ok s ∧
          ((∃ result, (e.execute command id).1 = ⟨s.label, .ok result⟩ ∧
              e.catalog.calmed.Succeeds (e.selection (id.getD defaultId)) s result disk r) ∨
            ∃ f, (e.execute command id).1 = ⟨s.label, .error f⟩ ∧
              e.catalog.calmed.Fails (e.selection (id.getD defaultId)) s f disk r)) := by
  obtain ⟨⟨f, -, hout⟩, hc, -⟩ | ⟨s, r, e', hs, hc, hex⟩ := h.execute_cases command id
  · exact ⟨_, _, hc ▸ Catalog.Same.refl _, .inl ⟨⟨_, hout⟩, rfl, rfl⟩⟩
  · rw [hex]
    cases hc with
    | @succeeds result e' disk r honest turns does sessions =>
      refine ⟨disk, r, ?_, .inr ⟨s, hs, .inl ⟨result, rfl, does⟩⟩⟩
      simpa only [onSuccess, record_catalog, withSession_catalog] using turns
    | @fails f e' disk r honest turns does sessions =>
      exact ⟨disk, r, turns, .inr ⟨s, hs, .inr ⟨f, rfl, does⟩⟩⟩

theorem Steady.execute (h : e.Steady) (command : Text) (id : Option Text) :
    (e.execute command id).2.Steady := by
  obtain ⟨-, hc, hs⟩ | ⟨s, r, e', hs, hc, hex⟩ := h.execute_cases command id
  · exact h.congr hc fun id x hx => by rw [selection, hs] at hx; exact hx
  · have h' := h.of_comes (Statement.ofCommand_named hs) hc
    rw [hex]
    refine h'.congr ?_ fun id' x hx => ?_
    · cases r <;> simp only [onSuccess, record_catalog, withSession_catalog]
    · cases r with
      | error f => exact hx
      | ok result =>
        have hx : (e'.withSession (id.getD defaultId)
            fun s => { s with executed := s.executed + 1 }).selection id' = some x := hx
        rwa [selection_counted] at hx

theorem start_steady {o : Options} {disk : Disk} (ho : o.Plain) (hh : disk.Honest)
    (hd : disk.calmed.Proper) : (start o disk).Steady := by
  have hdisk : (start o disk).catalog.archive.disk = disk := start_disk o hd.root
  refine ⟨?_, ⟨⟨⟨ho.1, ho.2, ho.3⟩, ?_, fun y hy => by cases hy⟩, fun y d hy => by cases hy⟩, ?_⟩
  · rw [Catalog.Honest, Archive.Honest, hdisk]
    exact hh
  · change (start o disk).catalog.archive.disk.calmed.Proper
    rw [hdisk]
    exact hd
  · intro id x hx
    simp only [selection, start, OrderedMap.get?_put] at hx
    split at hx <;> cases hx

/-- A new engine over a disk that refuses nothing yet. -/
theorem start_steady_of_proper {o : Options} {disk : Disk} (ho : o.Plain) (hd : disk.Proper) :
    (start o disk).Steady :=
  start_steady ho (Disk.honest_of_unrefused hd.unrefused)
    (by rw [Disk.calmed_of_unrefused hd.unrefused]; exact hd)

theorem Steady.restart (h : e.Steady) : e.restart.Steady := by
  have hplain := h.sane.settled.plain
  exact start_steady ⟨hplain.1, hplain.2, hplain.3⟩ h.honest h.sane.settled.proper

theorem Steady.after (h : e.Steady) (v : Event) : (e.after v).Steady := by
  cases v with
  | command text id => exact h.execute text id
  | openSession =>
    refine h.congr rfl fun id x hx => ?_
    simp only [Engine.after, selection, Engine.openSession, OrderedMap.get?_put] at hx
    split at hx
    · cases hx
    · exact hx
  | closeSession id =>
    refine h.congr (closeSession_catalog e id) fun id' x hx => ?_
    have hx : (e.closeSession id).2.selection id' = some x := hx
    unfold Engine.closeSession at hx
    split at hx
    · exact hx
    · simp only [selection, OrderedMap.get?_erase] at hx
      split at hx
      · cases hx
      · exact hx
  | restart => exact h.restart

theorem Steady.weathered (h : e.Steady) (w : Weather) : (e.weathered w).Steady where
  honest := w.honest
  sane :=
    { settled :=
        { plain := ⟨h.sane.settled.plain.1, h.sane.settled.plain.2, w.plain⟩
          proper := h.sane.settled.proper
          grounded := h.sane.settled.grounded }
      held := fun x d hx k t ht => (h.sane.held x d hx k t ht).congr rfl }
  seated := h.seated

theorem Steady.meet (h : e.Steady) (v : Happening) : (e.meet v).Steady := by
  cases v with
  | event v => exact h.after v
  | weather w => exact h.weathered w

theorem Steady.meetAll (h : e.Steady) (hs : List Happening) : (e.meetAll hs).Steady := by
  induction hs generalizing e with
  | nil => exact h
  | cons v hs ih => exact ih (h.meet v)

end Engine

end Tabular
