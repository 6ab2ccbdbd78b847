import Tabular.Proofs.Catalog.Apart
import Tabular.Proofs.Engine.Abreast

/-!
# Sessions apart

Sessions that work with different databases do not get in each other's way: however their commands
come one after the other, each session is answered as if the other had sent none, and finds its
database as it would have left it by itself.
-/

namespace Tabular

/-- A command that is sent for a session, and the weather while it is carried out. -/
structure Errand where
  session : Option Text
  command : Text
  weather : Weather

namespace Errand

/-- The id of the session. -/
def key (t : Errand) : Text := t.session.getD Engine.defaultId

/-- The database that the command names. -/
def database? (t : Errand) : Option Text :=
  match Statement.ofCommand t.command with
  | .ok s => s.database?
  | .error _ => none

end Errand

namespace Engine

/-- What comes of an errand. -/
def send (e : Engine) (t : Errand) : Outcome × Engine :=
  (e.weathered t.weather).execute t.command t.session

def sendAll (e : Engine) (ts : List Errand) : Engine := ts.foldl (fun e t => (e.send t).2) e

/-- What comes of each errand, and the session that it is for. -/
def replies (e : Engine) : List Errand → List (Text × Outcome)
  | [] => []
  | t :: ts => (t.key, (e.send t).1) :: (e.send t).2.replies ts

variable {e e' e'' : Engine} {x id y : Text} {t : Errand} {ts : List Errand}

theorem Steady.send (h : e.Steady) (t : Errand) : (e.send t).2.Steady :=
  (h.weathered t.weather).execute t.command t.session

/-! ## Agreement -/

/-- Two engines agree on a session and a database, whatever the weather is. -/
structure Agree (x id : Text) (e e' : Engine) : Prop where
  root : e'.disk.root = e.disk.root
  tree : Disk.AgreeIn x e.disk.entries e'.disk.entries
  suffix : e'.catalog.archive.suffix = e.catalog.archive.suffix
  safe : e'.catalog.archive.safe = e.catalog.archive.safe
  mode : e'.catalog.mode = e.catalog.mode
  resident : e'.catalog.resident.get? x = e.catalog.resident.get? x
  session : e'.sessions.get? id = e.sessions.get? id

namespace Agree

theorem refl (x id : Text) (e : Engine) : Agree x id e e :=
  ⟨rfl, fun _ _ => rfl, rfl, rfl, rfl, rfl, rfl⟩

theorem symm (h : Agree x id e e') : Agree x id e' e where
  root := h.root.symm
  tree := fun p hp => (h.tree p hp).symm
  suffix := h.suffix.symm
  safe := h.safe.symm
  mode := h.mode.symm
  resident := h.resident.symm
  session := h.session.symm

theorem trans (h : Agree x id e e') (h' : Agree x id e' e'') : Agree x id e e'' where
  root := h'.root.trans h.root
  tree := fun p hp => (h'.tree p hp).trans (h.tree p hp)
  suffix := h'.suffix.trans h.suffix
  safe := h'.safe.trans h.safe
  mode := h'.mode.trans h.mode
  resident := h'.resident.trans h.resident
  session := h'.session.trans h.session

theorem selection_eq (h : Agree x id e e') : e'.selection id = e.selection id := by
  rw [selection, selection, h.session]

/-- In the same weather, engines that agree match. -/
theorem weathered (h : Agree x id e e') (he : e.Steady)
    (hown : ∀ y, e.selection id = some y → y = x) (w : Weather) :
    (e.weathered w).Matches x e.catalog.archive.suffix id (e'.weathered w) where
  catalog :=
    { archive :=
        { disk :=
            { root := h.root
              refusals := rfl
              tree :=
                { get := h.tree
                  names := fun p f hf name hn =>
                    (he.sane.settled.proper.names (x :: p) f hf name (List.mem_cons_of_mem x hn)).1 } }
          suffix_left := rfl
          suffix_right := h.suffix
          safe := h.safe
          stamp := rfl
          plain := (he.weathered w).sane.settled.plain.congr rfl rfl }
      mode := h.mode
      resident := h.resident
      held := fun d hd k u hu =>
        ⟨(he.sane.held x d hd k u hu).sound, (he.sane.held x d hd k u hu).isName⟩ }
  session := h.session
  selects := hown

end Agree

theorem Matches.agree {suffix : Text} (h : e.Matches x suffix id e') : Agree x id e e' where
  root := h.catalog.archive.disk.root
  tree := h.catalog.archive.disk.tree.get
  suffix := h.catalog.archive.suffix_right.trans h.catalog.archive.suffix_left.symm
  safe := h.catalog.archive.safe
  mode := h.catalog.mode
  resident := h.catalog.resident
  session := h.session

/-! ## One errand -/

/-- An errand of the session comes to the same for engines that agree. -/
theorem Agree.send (h : Agree x id e e') (he : e.Steady)
    (hown : ∀ y, e.selection id = some y → y = x) (hkey : t.key = id)
    (hd : ∀ y ∈ t.database?, y = x) :
    (e'.send t).1 = (e.send t).1 ∧ Agree x id (e.send t).2 (e'.send t).2 := by
  have hread : ∀ s, Statement.ofCommand t.command = .ok s → ∀ y ∈ s.database?, y = x := by
    intro s hs y hy
    exact hd y (by rw [Errand.database?, hs]; exact hy)
  obtain ⟨hout, hm⟩ :=
    (h.weathered he hown t.weather).execute (he.weathered t.weather) hkey hread
  exact ⟨hout, hm.agree⟩

theorem sessions_withSession_other {key : Text} (h : key ≠ id) (f : Session → Session) :
    (e.withSession key f).sessions.get? id = e.sessions.get? id := by
  unfold withSession
  split
  · exact OrderedMap.get?_put_other _ _ h
  · rfl

/-- A statement of another session with another database leaves the session as it is. -/
theorem sessions_reseated_other {s : Statement} {key : Text} (hkey : key ≠ id)
    (hd : ∀ y ∈ s.database?, e.selection id ≠ some y) :
    (e.reseated key s).sessions.get? id = e.sessions.get? id := by
  cases s with
  | use y => exact sessions_withSession_other hkey _
  | dropDatabase y =>
    have hne := hd y rfl
    simp only [reseated, forgetting, OrderedMap.get?_map]
    unfold selection at hne
    cases hs : e.sessions.get? id with
    | none => rfl
    | some sess =>
      rw [hs] at hne
      exact congrArg some (if_neg hne)
  | _ => rfl

theorem Agree.of_spares {disk : Disk} {r : OrderedMap Text Database}
    (hturns : e.catalog.Turns disk r e'.catalog) (hs : e.catalog.calmed.Spares x disk r)
    (hsession : e'.sessions.get? id = e.sessions.get? id) : Agree x id e e' where
  root := (congrArg Disk.root hturns.disk).trans hs.root
  tree := by
    have hdisk : e'.disk.entries = disk.entries := by
      rw [← hturns.disk]
      rfl
    rw [hdisk]
    exact hs.tree
  suffix := hturns.suffix
  safe := hturns.safe
  mode := hturns.mode
  resident := by
    have hres : e'.catalog.resident = r := hturns.resident
    rw [hres]
    exact hs.resident
  session := hsession

/-- A command of another session with another database changes nothing of the session and the
database. -/
theorem Steady.agree_execute (h : e.Steady) {command : Text} {key : Option Text}
    (hown : ∀ y, e.selection id = some y → y = x) (hkey : key.getD defaultId ≠ id)
    (hsel : e.selection (key.getD defaultId) ≠ some x)
    (hd : ∀ s, Statement.ofCommand command = .ok s → ∀ y ∈ s.database?, y ≠ x) :
    Agree x id e (e.execute command key).2 := by
  have hselected : ∀ y ∈ e.selection (key.getD defaultId), y ≠ x := by
    rintro y hy rfl
    exact hsel hy
  obtain ⟨-, hc, hs⟩ | ⟨s, r, e', hs, hc, hex⟩ := h.execute_cases command key
  · refine .of_spares (hc ▸ Catalog.Same.refl _) (Catalog.spares_self _ x) ?_
    rw [hs]
  · rw [hex]
    cases hc with
    | @succeeds result e' disk r honest turns does sessions =>
      refine .of_spares ?_ (does.spares (hd s hs) hselected) ?_
      · simpa only [onSuccess, record_catalog, withSession_catalog] using turns
      · have hother : ∀ y ∈ s.database?, e.selection id ≠ some y :=
          fun y hy hy' => hd s hs y hy (hown y hy')
        exact (sessions_withSession_other hkey _).trans
          (sessions ▸ sessions_reseated_other hkey hother)
    | @fails f e' disk r honest turns does sessions =>
      exact .of_spares turns (does.spares (hd s hs) hselected) (congrArg (·.get? id) sessions)

theorem Agree.of_weathered (e : Engine) (w : Weather) : Agree x id e (e.weathered w) :=
  ⟨rfl, fun _ _ => rfl, rfl, rfl, rfl, rfl, rfl⟩

/-- An errand of another session with another database changes nothing. -/
theorem Steady.agree_send (h : e.Steady) (hown : ∀ y, e.selection id = some y → y = x)
    (hkey : t.key ≠ id) (hsel : e.selection t.key ≠ some x) (hd : ∀ y ∈ t.database?, y ≠ x) :
    Agree x id e (e.send t).2 := by
  have hread : ∀ s, Statement.ofCommand t.command = .ok s → ∀ y ∈ s.database?, y ≠ x := by
    intro s hs y hy
    exact hd y (by rw [Errand.database?, hs]; exact hy)
  exact (Agree.of_weathered e t.weather).trans
    ((h.weathered t.weather).agree_execute hown hkey hsel hread)

/-- A selection after an errand was there before, or the errand made it. -/
theorem Steady.selection_send (h : e.Steady) (hsel : (e.send t).2.selection id = some y) :
    t.key = id ∧ t.database? = some y ∨ e.selection id = some y := by
  obtain hmade | ⟨hbefore, -⟩ :=
    ((h.weathered t.weather).selection_execute_iff t.command t.session).1 hsel
  · simp only [selects, uses, Bool.and_eq_true, decide_eq_true_eq] at hmade
    refine .inl ⟨hmade.1, ?_⟩
    obtain ⟨-, huses⟩ := hmade
    split at huses
    · next z hc =>
      simp only [decide_eq_true_eq] at huses
      simp only [carried?] at hc
      split at hc
      · next s hs =>
        split at hc
        · cases hc
          rw [Errand.database?, hs, ← huses]
          rfl
        · cases hc
      · cases hc
    · cases huses
  · exact .inr hbefore

/-! ## Runs -/

/-- A session with a database and others without it: the session is answered, and finds the
database, as if it were alone. -/
theorem Agree.sendAll (h : Agree x id e e') (he : e.Steady)
    (hown : ∀ y, e.selection id = some y → y = x)
    (hothers : ∀ t ∈ ts, t.key ≠ id → e.selection t.key ≠ some x)
    (hts : ∀ t ∈ ts, t.key = id ∧ (∀ y ∈ t.database?, y = x) ∨
      t.key ≠ id ∧ ∀ y ∈ t.database?, y ≠ x) :
    (e.replies ts).filter (·.1 = id) = e'.replies (ts.filter (·.key = id)) ∧
      Agree x id (e.sendAll ts) (e'.sendAll (ts.filter (·.key = id))) := by
  induction ts generalizing e e' with
  | nil => exact ⟨rfl, h⟩
  | cons t ts ih =>
    obtain ⟨ht, hts⟩ := List.forall_mem_cons.1 hts
    have hown' : ∀ y, (e.send t).2.selection id = some y → y = x := by
      intro y hy
      obtain ⟨hkey, hd⟩ | hy := he.selection_send hy
      · obtain ⟨-, hd'⟩ | ⟨hne, -⟩ := ht
        · exact hd' y hd
        · exact absurd hkey hne
      · exact hown y hy
    have hothers' : ∀ u ∈ ts, u.key ≠ id → (e.send t).2.selection u.key ≠ some x := by
      intro u hu hne hsel
      obtain ⟨hkey, hd⟩ | hsel := he.selection_send hsel
      · obtain ⟨heq, -⟩ | ⟨-, hd'⟩ := ht
        · exact hne (hkey ▸ heq)
        · exact hd' x hd rfl
      · exact hothers u (List.mem_cons_of_mem t hu) hne hsel
    obtain ⟨hkey, hd⟩ | ⟨hkey, hd⟩ := ht
    · obtain ⟨hout, hnext⟩ := h.send he hown hkey hd
      obtain ⟨hreplies, hend⟩ := ih hnext (he.send t) hown' hothers' hts
      simp only [replies, hkey, List.filter_cons, decide_true, if_true, hreplies, hout, true_and]
      exact hend
    · have hnext := (he.agree_send hown hkey (hothers t List.mem_cons_self hkey) hd).symm.trans h
      obtain ⟨hreplies, hend⟩ := ih hnext (he.send t) hown' hothers' hts
      simp only [replies, hkey, List.filter_cons, decide_false, Bool.false_eq_true, if_false]
      exact ⟨hreplies, hend⟩

/-- Two sessions start without a database, and from then on each names a database of its own. Then
each of them is answered, and ends with the selection, the database in memory and the files, as
without the other, however their commands come one after the other. -/
theorem sessions_apart {o : Options} {disk : Disk} (ho : o.Plain) (hd : disk.Proper)
    (hs : List Happening) {a b i j : Text} (hab : a ≠ b) (hij : i ≠ j)
    (hi : ((start o disk).meetAll hs).selection i = none)
    (hj : ((start o disk).meetAll hs).selection j = none)
    (hts : ∀ t ∈ ts, t.key = i ∧ (∀ y ∈ t.database?, y = a) ∨
      t.key = j ∧ ∀ y ∈ t.database?, y = b) :
    let e := (start o disk).meetAll hs
    let full := e.sendAll ts
    let solo := e.sendAll (ts.filter (·.key = i))
    (e.replies ts).filter (·.1 = i) = e.replies (ts.filter (·.key = i)) ∧
      full.selection i = solo.selection i ∧
      full.catalog.resident.get? a = solo.catalog.resident.get? a ∧
      ∀ p, [a] <+: p → full.disk.entries.get? p = solo.disk.entries.get? p := by
  intro e full solo
  have he : e.Steady := (start_steady_of_proper ho hd).meetAll hs
  have hothers : ∀ t ∈ ts, t.key ≠ i → e.selection t.key ≠ some a := by
    intro t ht hne hsel
    obtain ⟨hkey, -⟩ | ⟨hkey, -⟩ := hts t ht
    · exact hne hkey
    · rw [hkey, hj] at hsel
      cases hsel
  have hts' : ∀ t ∈ ts, t.key = i ∧ (∀ y ∈ t.database?, y = a) ∨
      t.key ≠ i ∧ ∀ y ∈ t.database?, y ≠ a := by
    intro t ht
    refine (hts t ht).imp_right fun ⟨hkey, hb⟩ => ⟨hkey ▸ hij.symm, fun y hy => ?_⟩
    exact hb y hy ▸ hab.symm
  have hown : ∀ y, e.selection i = some y → y = a := by
    intro y hy
    cases hi.symm.trans hy
  obtain ⟨hreplies, hend⟩ := (Agree.refl a i e).sendAll he hown hothers hts'
  refine ⟨hreplies, hend.selection_eq.symm, hend.resident.symm, fun p hp => (hend.tree p ?_).symm⟩
  obtain ⟨rest, rfl⟩ := hp
  exact fun y hy => (Option.some.inj hy).symm

/-- A session fills a table while another one drops its database. -/
theorem sessions_apart_of_drop :
    let o : Options := ⟨['.', 't', 'a', 'b'], false, .whole, ['1']⟩
    let clear : Weather := ⟨[], ['1'], nofun, by decide⟩
    let own (command : String) : Errand := ⟨none, command.toList, clear⟩
    let other (command : String) : Errand := ⟨some (sessionId 1), command.toList, clear⟩
    let ts := [own "CREATE DATABASE a;", other "CREATE DATABASE b;", other "USE b;", own "USE a;",
      own "CREATE TABLE t (c);", other "DROP DATABASE b;", own "INSERT INTO t VALUES ('x');"]
    let e := (start o (Disk.empty ['r'])).meetAll [.event .openSession]
    let full := e.sendAll ts
    let solo := e.sendAll (ts.filter (·.key = defaultId))
    (∀ reply ∈ e.replies ts, reply.2.success) ∧
      e.selection defaultId = none ∧ e.selection (sessionId 1) = none ∧
      (∀ t ∈ ts, t.key = defaultId ∧ (∀ y ∈ t.database?, y = ['a']) ∨
        t.key = sessionId 1 ∧ ∀ y ∈ t.database?, y = ['b']) ∧
      (e.replies ts).filter (·.1 = defaultId) = e.replies (ts.filter (·.key = defaultId)) ∧
      full.selection defaultId = solo.selection defaultId ∧
      full.catalog.resident.get? ['a'] = solo.catalog.resident.get? ['a'] ∧
      ∀ p, [['a']] <+: p → full.disk.entries.get? p = solo.disk.entries.get? p := by
  have ho : Options.Plain ⟨['.', 't', 'a', 'b'], false, .whole, ['1']⟩ :=
    ⟨by decide, by decide, by decide⟩
  have hd : (Disk.empty ['r']).Proper := Disk.empty_proper _
  have hab : ['a'] ≠ ['b'] := by decide
  have hij : defaultId ≠ sessionId 1 := (sessionId_ne_defaultId 1).symm
  exact ⟨by decide +kernel, by decide +kernel, by decide +kernel, by decide +kernel,
    sessions_apart ho hd [.event .openSession] hab hij (by decide +kernel) (by decide +kernel)
      (by decide +kernel)⟩

end Engine

end Tabular
