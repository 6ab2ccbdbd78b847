import Tabular.Metrics
import Tabular.Proofs.Engine.Sessions
import Tabular.Proofs.Text.Decimal

/-!
# Counters

What an engine reports about itself agrees with what has happened to it. The calls of an engine are
noted in a log: commands with their sessions, their labels and whether they succeeded, and sessions
that come and go. Each counter of the engine then is a number that can be read off the log, whatever
the calls are, in whatever order they come, and whatever becomes of the disk meanwhile.
-/

namespace Tabular

/-! ## Tallies -/

namespace Tally

variable {κ : Type} [DecidableEq κ] {t : Tally κ} {n : κ → Nat}

/-- The tally says how often each thing has happened, and has nothing about what has not. -/
def Counts (t : Tally κ) (n : κ → Nat) : Prop :=
  ∀ k, t.get? k = if n k = 0 then none else some (n k)

theorem counts_empty : Counts (.empty : Tally κ) fun _ => 0 := fun _ => rfl

theorem Counts.congr (h : t.Counts n) {m : κ → Nat} (hm : ∀ k, m k = n k) : t.Counts m := by
  rwa [funext hm]

theorem Counts.bump (h : t.Counts n) (k : κ) :
    (t.bump k).Counts fun j => n j + if k = j then 1 else 0 := by
  intro j
  have hk : t.count k = n k := by
    rw [count, h k]
    split
    · next hz => simp [hz]
    · rfl
  rw [Tally.bump, OrderedMap.get?_put, hk]
  by_cases hj : k = j
  · subst hj
    simp
  · simp [hj, h j]

end Tally

namespace Engine

open Tabular.Action

/-! ## Calls and notes of them -/

/-- A call of an engine, or a change of its disk from outside. -/
inductive Call where
  | execute (command : Text) (session : Option Text)
  | openSession
  | closeSession (id : Text)
  | closeAll
  | outside (disk : Disk)

inductive Note where
  | command (session : Text) (label : Label) (success : Bool)
  | opened (id : Text)
  | closed (id : Text)
  deriving DecidableEq, Repr

namespace Note

def isCommand (label : Label) (success : Bool) : Note → Bool
  | command _ l b => l = label && b = success
  | _ => false

def ended (success : Bool) : Note → Bool
  | command _ _ b => b = success
  | _ => false

def isOpened : Note → Bool
  | opened _ => true
  | _ => false

def isClosed : Note → Bool
  | closed _ => true
  | _ => false

/-- The number of successes of a session after one more note: it begins anew when it is opened. -/
def successesAfter (id : Text) (n : Nat) : Note → Nat
  | command session _ true => if session = id then n + 1 else n
  | command _ _ false => n
  | opened session => if session = id then 0 else n
  | closed _ => n

/-- The number of successes that a session has had since it was opened. -/
def successes (id : Text) (log : List Note) : Nat := log.foldl (successesAfter id) 0

end Note

def call (e : Engine) : Call → Engine
  | .execute command id => (e.execute command id).2
  | .openSession => e.openSession.2
  | .closeSession id => (e.closeSession id).2
  | .closeAll => e.closeAll
  | .outside disk => e.withDisk disk

/-- What is noted of closing sessions one after the other. -/
def closings (e : Engine) : List Text → List Note
  | [] => []
  | id :: ids =>
    (if (e.closeSession id).1 then [.closed id] else []) ++ closings (e.closeSession id).2 ids

/-- What is noted of a call. -/
def notes (e : Engine) : Call → List Note
  | .execute command id =>
    let o := (e.execute command id).1
    [.command (id.getD defaultId) o.label o.success]
  | .openSession => [.opened e.openSession.1]
  | .closeSession id => e.closings [id]
  | .closeAll => e.closings (e.sessions.keys.filter (· ≠ defaultId))
  | .outside _ => []

def callAll (e : Engine) (cs : List Call) : Engine := cs.foldl call e

/-- What is noted of calls. -/
def log (e : Engine) : List Call → List Note
  | [] => []
  | c :: cs => e.notes c ++ (e.call c).log cs

/-! ## Counters that agree with a log -/

/-- The counters are what is in the log. -/
structure AddsUp (e : Engine) (log : List Note) : Prop where
  succeeded : e.succeeded = log.countP (Note.ended true)
  failed : e.failed = log.countP (Note.ended false)
  commands : e.commands.Counts fun k => log.countP (Note.isCommand k.1 k.2)
  timings : e.timings.Counts fun label =>
    log.countP (Note.isCommand label true) + log.countP (Note.isCommand label false)
  executed : ∀ id s, e.sessions.get? id = some s → s.executed = Note.successes id log
  sessions : e.sessions.size + log.countP Note.isClosed = log.countP Note.isOpened + 1
  gauge : e.gauge + 1 = e.sessions.size
  resident : e.catalog.Gauged
  always : e.sessions.has defaultId
  ids : ∀ id, e.sessions.has id → id = defaultId ∨ ∃ n ≤ e.opened, id = sessionId n

variable {e e' : Engine} {log : List Note}

theorem start_addsUp (options : Options) (disk : Disk) : (start options disk).AddsUp [] where
  succeeded := rfl
  failed := rfl
  commands := Tally.counts_empty
  timings := Tally.counts_empty
  executed := by
    intro id s hs
    simp only [start, OrderedMap.get?_put] at hs
    split at hs
    · cases hs
      rfl
    · cases hs
  sessions := rfl
  gauge := rfl
  resident := rfl
  always := rfl
  ids := by
    intro id hid
    simp only [start, OrderedMap.has, OrderedMap.get?_put] at hid
    split at hid
    · next h => exact .inl h.symm
    · cases hid

/-! ## Statements -/

/-- No session comes or goes and nothing is counted, but that the number of resident databases may
change with their report. -/
structure SameCounts (e e' : Engine) : Prop where
  keys : e'.sessions.keys = e.sessions.keys
  executed : ∀ id, (e'.sessions.get? id).map (·.executed) = (e.sessions.get? id).map (·.executed)
  opened : e'.opened = e.opened
  gauge : e'.gauge = e.gauge
  succeeded : e'.succeeded = e.succeeded
  failed : e'.failed = e.failed
  commands : e'.commands = e.commands
  timings : e'.timings = e.timings
  resident : Catalog.StaysGauged e.catalog e'.catalog

namespace SameCounts

variable {e'' : Engine}

theorem refl (e : Engine) : SameCounts e e := ⟨rfl, fun _ => rfl, rfl, rfl, rfl, rfl, rfl, rfl, id⟩

theorem trans (h : SameCounts e e') (h' : SameCounts e' e'') : SameCounts e e'' where
  keys := h'.keys.trans h.keys
  executed id := (h'.executed id).trans (h.executed id)
  opened := h'.opened.trans h.opened
  gauge := h'.gauge.trans h.gauge
  succeeded := h'.succeeded.trans h.succeeded
  failed := h'.failed.trans h.failed
  commands := h'.commands.trans h.commands
  timings := h'.timings.trans h.timings
  resident := h.resident.trans h'.resident

end SameCounts

/-! ### Sessions that change -/

theorem withSession_eq (e : Engine) (id : Text) (f : Session → Session) :
    e.withSession id f = { e with sessions := (e.withSession id f).sessions } := by
  unfold withSession
  split <;> rfl

theorem keys_withSession (e : Engine) (id : Text) (f : Session → Session) :
    (e.withSession id f).sessions.keys = e.sessions.keys := by
  unfold withSession
  split
  · next s hs => exact OrderedMap.keys_put_of_has _ (by simp [OrderedMap.has, hs])
  · rfl

theorem get?_withSession (e : Engine) (id id' : Text) (f : Session → Session) :
    (e.withSession id f).sessions.get? id' =
      if id = id' then (e.sessions.get? id).map f else e.sessions.get? id' := by
  unfold withSession
  cases hs : e.sessions.get? id with
  | some s => simp [OrderedMap.get?_put]
  | none =>
    by_cases h : id = id'
    · simp [← h, hs]
    · simp [h]

theorem withSession_sameCounts (e : Engine) (id : Text) {f : Session → Session}
    (hf : ∀ s, (f s).executed = s.executed) : SameCounts e (e.withSession id f) := by
  have hexecuted (id' : Text) : ((e.withSession id f).sessions.get? id').map (·.executed) =
      (e.sessions.get? id').map (·.executed) := by
    rw [get?_withSession]
    split
    · next h =>
      subst h
      cases e.sessions.get? id <;> simp [hf]
    · rfl
  have hkeys := e.keys_withSession id f
  rw [withSession_eq]
  exact ⟨hkeys, hexecuted, rfl, rfl, rfl, rfl, rfl, rfl, Catalog.StaysGauged.refl _⟩

theorem forgetting_sameCounts (e : Engine) (x : Text) : SameCounts e (e.forgetting x) where
  keys := OrderedMap.keys_map _ _
  executed := by
    intro id
    rw [forgetting, OrderedMap.get?_map, Option.map_map]
    refine congrArg (Option.map · _) (funext fun s => ?_)
    simp only [Function.comp_apply]
    split <;> rfl
  opened := rfl
  gauge := rfl
  succeeded := rfl
  failed := rfl
  commands := rfl
  timings := rfl
  resident := Catalog.StaysGauged.refl _

theorem sameCounts_keptByParts : KeptByParts SameCounts where
  refl := SameCounts.refl
  trans := SameCounts.trans
  onCatalog := fun hw e => ⟨rfl, fun _ => rfl, rfl, rfl, rfl, rfl, rfl, rfl, hw e.catalog⟩
  select := fun id _ e => e.withSession_sameCounts id fun _ => rfl
  forget := fun x e => e.forgetting_sameCounts x

theorem AddsUp.congr (h : e.AddsUp log) (hs : SameCounts e e') : e'.AddsUp log where
  succeeded := hs.succeeded.trans h.succeeded
  failed := hs.failed.trans h.failed
  commands := hs.commands ▸ h.commands
  timings := hs.timings ▸ h.timings
  executed := by
    intro id s hget
    have hexecuted := hs.executed id
    rw [hget] at hexecuted
    obtain ⟨s₀, hs₀, heq⟩ := Option.map_eq_some_iff.1 hexecuted.symm
    exact heq.symm.trans (h.executed id s₀ hs₀)
  sessions := by rw [OrderedMap.size_of_keys hs.keys]; exact h.sessions
  gauge := by rw [hs.gauge, OrderedMap.size_of_keys hs.keys]; exact h.gauge
  resident := hs.resident h.resident
  always := by rw [OrderedMap.has_of_keys hs.keys]; exact h.always
  ids := by
    intro id hid
    rw [OrderedMap.has_of_keys hs.keys] at hid
    rw [hs.opened]
    exact h.ids id hid

/-! ## Commands -/

section Commands

variable (session : Text) (label : Label) (success : Bool)

/-- A command is counted, and its session if it is one. -/
theorem AddsUp.counted (h : e.AddsUp log) {sessions : OrderedMap Text Session}
    (hkeys : sessions.keys = e.sessions.keys)
    (hexecuted : ∀ id s, sessions.get? id = some s →
      s.executed = Note.successes id (log ++ [Note.command session label success])) :
    ({ e with sessions := sessions }.record label success).AddsUp
      (log ++ [Note.command session label success]) where
  succeeded := by
    rw [record, h.succeeded, List.countP_append]
    cases success <;> rfl
  failed := by
    rw [record, h.failed, List.countP_append]
    cases success <;> rfl
  commands := by
    refine (h.commands.bump (label, success)).congr fun k => ?_
    rw [List.countP_append, List.countP_singleton]
    simp [Note.isCommand, Prod.ext_iff]
  timings := by
    refine (h.timings.bump label).congr fun l => ?_
    simp only [List.countP_append, List.countP_singleton, Note.isCommand]
    cases success <;> by_cases hl : label = l <;> simp [hl] <;> omega
  executed := hexecuted
  sessions := by
    rw [List.countP_append, List.countP_append]
    exact (OrderedMap.size_of_keys hkeys).symm ▸ h.sessions
  gauge := h.gauge.trans (OrderedMap.size_of_keys hkeys).symm
  resident := h.resident
  always := (OrderedMap.has_of_keys hkeys _).trans h.always
  ids := fun id hid => h.ids id ((OrderedMap.has_of_keys hkeys id).symm.trans hid)

/-- A command that does not succeed counts for no session. -/
theorem AddsUp.record_failed (h : e.AddsUp log) :
    (e.record label false).AddsUp (log ++ [Note.command session label false]) := by
  refine h.counted session label false rfl fun id s hs => ?_
  rw [Note.successes, List.foldl_append]
  exact h.executed id s hs

/-- A command that succeeds counts for its session. -/
theorem AddsUp.record_succeeded (h : e.AddsUp log) :
    ((e.withSession session fun s => { s with executed := s.executed + 1 }).record label true).AddsUp
      (log ++ [Note.command session label true]) := by
  rw [withSession_eq]
  refine h.counted session label true (e.keys_withSession ..) fun id s hs => ?_
  rw [Note.successes, List.foldl_append]
  rw [get?_withSession] at hs
  by_cases hid : session = id
  · subst hid
    rw [if_pos rfl] at hs
    obtain ⟨s₀, hs₀, rfl⟩ := Option.map_eq_some_iff.1 hs
    simp [Note.successesAfter, h.executed session s₀ hs₀, Note.successes]
  · rw [if_neg hid] at hs
    simpa [Note.successesAfter, hid, Note.successes] using h.executed id s hs

end Commands

theorem AddsUp.execute (h : e.AddsUp log) (command : Text) (id : Option Text) :
    (e.execute command id).2.AddsUp (log ++ e.notes (.execute command id)) := by
  cases hid : e.session id with
  | error f =>
    have hex : e.execute command id = (⟨.unknown, .error f⟩, e.record .unknown false) := by
      simp only [Engine.execute, hid]
    rw [notes, hex]
    exact h.record_failed _ _
  | ok sess =>
    cases hs : Statement.ofCommand command with
    | error f =>
      have hex : e.execute command id = (⟨.unknown, .error f⟩, e.record .unknown false) := by
        simp only [Engine.execute, hid, hs]
      rw [notes, hex]
      exact h.record_failed _ _
    | ok s =>
      cases hrun : (perform (id.getD defaultId) s).run e with
      | mk r e' =>
        have h' : e'.AddsUp log :=
          h.congr ((sameCounts_keptByParts.perform _ s).of_run hrun)
        rw [notes, execute_run hid hs hrun]
        cases r with
        | error f => exact h'.record_failed _ _
        | ok result => exact h'.record_succeeded _ _

/-! ## Sessions -/

/-- The zeros before a number and its digits tell the number. -/
theorem toNat_sessionId (n : Nat) : Text.toNat (sessionId n) = n := by
  have hzeros (k : Nat) : Text.digitsAfter 0 (List.replicate k '0') = 0 := by
    induction k with
    | zero => rfl
    | succ k ih => exact ih
  rw [sessionId, Text.toNat, Text.digitsAfter_append, hzeros]
  exact Text.toNat_ofNat n

theorem sessionId_inj {m n : Nat} (h : sessionId m = sessionId n) : m = n := by
  rw [← toNat_sessionId m, h, toNat_sessionId]

/-- A session that is opened has an id that no open one has. -/
theorem AddsUp.fresh (h : e.AddsUp log) : e.sessions.has (sessionId (e.opened + 1)) = false := by
  refine Bool.eq_false_iff.2 fun hid => ?_
  obtain hid | ⟨n, hn, hid⟩ := h.ids _ hid
  · exact sessionId_ne_defaultId _ hid
  · have := sessionId_inj hid
    omega

theorem AddsUp.openSession (h : e.AddsUp log) :
    e.openSession.2.AddsUp (log ++ [.opened e.openSession.1]) where
  succeeded := by simpa [Engine.openSession, Note.ended] using h.succeeded
  failed := by simpa [Engine.openSession, Note.ended] using h.failed
  commands := h.commands.congr fun k => by simp [Note.isCommand]
  timings := h.timings.congr fun l => by simp [Note.isCommand]
  executed := by
    intro id s hs
    rw [Note.successes, List.foldl_append]
    simp only [Engine.openSession, OrderedMap.get?_put] at hs
    simp only [Engine.openSession, List.foldl_cons, List.foldl_nil, Note.successesAfter]
    split at hs
    · next hid =>
      cases hs
      rw [if_pos hid]
    · next hid =>
      rw [if_neg hid]
      exact h.executed id s hs
  sessions := by
    have hsize := OrderedMap.size_put_of_not_has (⟨none, 0⟩ : Session) h.fresh
    have := h.sessions
    simp only [Engine.openSession, hsize, List.countP_append, List.countP_singleton, Note.isOpened,
      Note.isClosed]
    simp only [if_true, Bool.false_eq_true, if_false]
    omega
  gauge := by
    have hsize := OrderedMap.size_put_of_not_has (⟨none, 0⟩ : Session) h.fresh
    simp only [Engine.openSession, hsize]
    omega
  resident := h.resident
  always := OrderedMap.has_put_of_has _ _ h.always
  ids := by
    intro id hid
    rw [openSession_has] at hid
    obtain hid | hid := Bool.or_eq_true_iff.1 hid
    · exact .inr ⟨e.opened + 1, le_refl _, (beq_iff_eq.1 hid).symm⟩
    · obtain hid | ⟨n, hn, hid⟩ := h.ids id hid
      · exact .inl hid
      · exact .inr ⟨n, Nat.le_succ_of_le hn, hid⟩

/-- A session that is open and not always so is closed. -/
theorem AddsUp.close (h : e.AddsUp log) {id : Text} (hid : id ≠ defaultId)
    (hopen : e.sessions.has id) :
    AddsUp { e with sessions := e.sessions.erase id, gauge := (e.sessions.erase id).size - 1 }
      (log ++ [.closed id]) where
  succeeded := by simpa [Note.ended] using h.succeeded
  failed := by simpa [Note.ended] using h.failed
  commands := h.commands.congr fun k => by simp [Note.isCommand]
  timings := h.timings.congr fun l => by simp [Note.isCommand]
  executed := by
    intro id' s hs
    rw [Note.successes, List.foldl_append]
    rw [OrderedMap.get?_erase] at hs
    split at hs
    · cases hs
    · exact h.executed id' s hs
  sessions := by
    have hsize := OrderedMap.size_erase_of_has hopen
    have := h.sessions
    simp only [List.countP_append, List.countP_singleton, Note.isOpened, Note.isClosed, if_true,
      Bool.false_eq_true, if_false]
    omega
  gauge := by
    have halways : (e.sessions.erase id).has defaultId := by
      rw [OrderedMap.has, OrderedMap.get?_erase_other _ hid]
      exact h.always
    have hpos := List.length_pos_of_mem (OrderedMap.has_iff_mem_keys.1 halways)
    rw [← OrderedMap.size_eq] at hpos
    exact Nat.sub_add_cancel hpos
  resident := h.resident
  always := by
    rw [OrderedMap.has, OrderedMap.get?_erase_other _ hid]
    exact h.always
  ids := by
    intro id' hid'
    rw [OrderedMap.has, OrderedMap.get?_erase] at hid'
    split at hid'
    · cases hid'
    · exact h.ids id' hid'

theorem AddsUp.closeSession (h : e.AddsUp log) (id : Text) : (e.closeSession id).2.AddsUp
    (log ++ if (e.closeSession id).1 then [.closed id] else []) := by
  by_cases hid : id = defaultId
  · simpa [Engine.closeSession, hid] using h
  · cases hopen : e.sessions.has id with
    | true => simpa [Engine.closeSession, hid, hopen] using h.close hid hopen
    | false =>
      -- Nothing is closed, and the number of open sessions is reported once more.
      have hsame : e.closeSession id = (false, e) := by
        have herase := OrderedMap.erase_of_get?_eq_none (OrderedMap.has_eq_false_iff.1 hopen)
        have hgauge : e.sessions.size - 1 = e.gauge := by rw [← h.gauge, Nat.add_sub_cancel]
        simp only [Engine.closeSession, if_neg hid, hopen, herase, hgauge]
      simpa [hsame] using h

theorem AddsUp.closings (h : e.AddsUp log) (ids : List Text) :
    (ids.foldl (fun e id => (e.closeSession id).2) e).AddsUp (log ++ e.closings ids) := by
  induction ids generalizing e log with
  | nil => simpa [Engine.closings] using h
  | cons id ids ih =>
    rw [Engine.closings, ← List.append_assoc]
    exact ih (h.closeSession id)

/-! ## Calls -/

/-- Whatever the call is, the counters agree with the log to which it is added. -/
theorem AddsUp.call (h : e.AddsUp log) (c : Call) : (e.call c).AddsUp (log ++ e.notes c) := by
  cases c with
  | execute command id => exact h.execute command id
  | openSession => exact h.openSession
  | closeSession id => exact h.closings [id]
  | closeAll => exact h.closings _
  | outside disk =>
    rw [notes, List.append_nil]
    exact h.congr ⟨rfl, fun _ => rfl, rfl, rfl, rfl, rfl, rfl, rfl, Catalog.StaysGauged.refl _⟩

theorem AddsUp.callAll (h : e.AddsUp log) (cs : List Call) :
    (e.callAll cs).AddsUp (log ++ e.log cs) := by
  induction cs generalizing e log with
  | nil =>
    rw [Engine.log, List.append_nil]
    exact h
  | cons c cs ih =>
    rw [Engine.log, ← List.append_assoc]
    exact ih (h.call c)

end Engine

end Tabular
