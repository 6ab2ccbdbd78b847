import Tabular.Proofs.Catalog.Standing
import Tabular.Proofs.Engine.Appending
import Tabular.Proofs.Engine.Weather

/-!
# Ids of inserted rows

A table gives its ids out in increasing order from when it is made until it is dropped, but for
restarts: the next id is not in the file, and a new engine takes the one that follows the largest
id left there. As long as some row with an id that is no smaller is left at each restart, an id that
was given does not come again.
-/

namespace Tabular.Engine

variable {e : Engine} {x t : Text} {u : Table} {v : Event} {vs ws : List Event}

/-- The statement of a command that succeeds, and the database that its session has selected. -/
def carried? (e : Engine) : Event → Option (Option Text × Statement)
  | .command text id =>
    match Statement.ofCommand text with
    | .ok s =>
      if (e.execute text id).1.success then some (e.selection (id.getD defaultId), s) else none
    | .error _ => none
  | .openSession | .closeSession _ | .restart => none

/-- Does the event make the table of a name in a database? -/
def makes (e : Engine) (x t : Text) (v : Event) : Bool :=
  match e.carried? v with
  | some (y, .createTable name _) => y = some x && name = t
  | _ => false

/-- Does the event drop the table, or its database? -/
def drops (e : Engine) (x t : Text) (v : Event) : Bool :=
  match e.carried? v with
  | some (y, .dropTable name) => y = some x && name = t
  | some (_, .dropDatabase name) => name = x
  | _ => false

/-- The id that the event gives to a new row of the table, if it inserts one. -/
def givenId? (e : Engine) (x t : Text) (v : Event) : Option Nat :=
  match e.carried? v with
  | some (y, .insert name _) =>
    if y = some x ∧ name = t then
      ((e.after v).catalog.resident.get? x).bind fun d =>
        (d.tables.get? t).bind fun u => u.rows.getLast?.map Table.rowId
    else none
  | _ => none

/-- The table is not dropped in a run. -/
def lasts (e : Engine) (x t : Text) : List Event → Bool
  | [] => true
  | v :: vs => !e.drops x t v && lasts (e.after v) x t vs

/-- Is a row with this id or a larger one left in the file of the table? -/
def retains (e : Engine) (x t : Text) (m : Nat) : Bool :=
  (e.catalog.archive.fetch x t).toOption.any fun u => u.rows.any fun row => m ≤ Table.rowId row

/-- Such a row is left at every restart of a run. -/
def retainsThroughout (e : Engine) (x t : Text) (m : Nat) : List Event → Bool
  | [] => true
  | v :: vs => (v != .restart || e.retains x t m) && retainsThroughout (e.after v) x t m vs

/-! ## Undisturbed runs -/

/-- A run in which every command succeeds is undisturbed. -/
theorem undisturbed_of_success (h : ∀ a ∈ e.outcomes vs, a.success) : e.Undisturbed vs := by
  intro a ha f hf
  have hok := h a ha
  rw [Outcome.success, hf] at hok
  cases hok

theorem outcomes_append (e : Engine) (vs ws : List Event) :
    e.outcomes (vs ++ ws) = e.outcomes vs ++ (e.afterAll vs).outcomes ws := by
  induction vs generalizing e with
  | nil => rfl
  | cons v vs ih =>
    cases v with
    | command text id => exact congrArg _ (ih _)
    | _ => exact ih _

theorem undisturbed_append :
    e.Undisturbed (vs ++ ws) ↔ e.Undisturbed vs ∧ (e.afterAll vs).Undisturbed ws := by
  simp only [Undisturbed, outcomes_append, List.mem_append, or_imp, forall_and]

theorem undisturbed_cons :
    e.Undisturbed (v :: vs) ↔ e.Undisturbed [v] ∧ (e.after v).Undisturbed vs := by
  have h : e.Undisturbed ([v] ++ vs) ↔ e.Undisturbed [v] ∧ (e.afterAll [v]).Undisturbed vs :=
    undisturbed_append
  exact h

theorem lasts_append (e : Engine) (x t : Text) (vs ws : List Event) :
    e.lasts x t (vs ++ ws) = (e.lasts x t vs && (e.afterAll vs).lasts x t ws) := by
  induction vs generalizing e with
  | nil => rfl
  | cons v vs ih =>
    simp only [List.cons_append, lasts, ih, Bool.and_assoc]
    rfl

theorem Steady.afterAll (h : e.Steady) (vs : List Event) : (e.afterAll vs).Steady := by
  induction vs generalizing e with
  | nil => exact h
  | cons v vs ih => exact ih (h.after v)

/-! ## One event -/

theorem carried?_eq_some_iff {y : Option Text} {s : Statement} :
    e.carried? v = some (y, s) ↔ ∃ text id, v = .command text id ∧
      Statement.ofCommand text = .ok s ∧ (e.execute text id).1.success ∧
      e.selection (id.getD defaultId) = y := by
  cases v with
  | command text id =>
    constructor
    · intro hv
      cases hs : Statement.ofCommand text with
      | error f => simp [carried?, hs] at hv
      | ok s' =>
        simp only [carried?, hs, Option.ite_none_right_eq_some, Option.some.injEq,
          Prod.mk.injEq] at hv
        obtain ⟨hok, rfl, rfl⟩ := hv
        exact ⟨text, id, rfl, hs, hok, rfl⟩
    · rintro ⟨_, _, ⟨⟩, hs, hok, rfl⟩
      simp only [carried?, hs, hok, if_true]
  | _ => simp [carried?]

/-- What a command that succeeds makes of the catalog. -/
theorem Steady.succeeds_of_carried? (h : e.Steady) {y : Option Text} {s : Statement}
    (hv : e.carried? v = some (y, s)) :
    s.Named ∧ ∃ result disk r, e.catalog.calmed.Succeeds y s result disk r ∧
      e.catalog.Turns disk r (e.after v).catalog := by
  obtain ⟨text, id, rfl, hs, hok, rfl⟩ := carried?_eq_some_iff.1 hv
  refine ⟨Statement.ofCommand_named hs, ?_⟩
  obtain ⟨disk, r, turns, ⟨⟨f, hout⟩, -⟩ | ⟨s', hs', ⟨result, -, does⟩ | ⟨f, hout, -⟩⟩⟩ :=
    h.execute_catalog text id
  · rw [hout] at hok
    cases hok
  · cases hs.symm.trans hs'
    exact ⟨result, disk, r, does, turns⟩
  · rw [hout] at hok
    cases hok

theorem retains_of_stands {m : Nat} (h : e.catalog.Stands x t u) (hr : e.retains x t m) :
    m < Table.followingId u.rows := by
  rw [retains, h.fetch_eq] at hr
  simp only [Except.toOption, Option.any_some, List.any_eq_true, decide_eq_true_eq] at hr
  obtain ⟨row, hrow, hm⟩ := hr
  exact Nat.lt_of_le_of_lt hm (Table.rowId_lt_followingId hrow)

/-- A restart leaves a table standing as its file has it. -/
theorem Steady.stands_restart (h : e.Steady) (hs : e.catalog.Stands x t u) :
    e.restart.catalog.Stands x t { u with nextId := Table.followingId u.rows } := by
  have hroot : e.disk.entries.get? [] = some .directory := h.sane.settled.proper.root
  have hdisk : e.restart.catalog.archive.disk = e.catalog.archive.disk := restart_disk hroot
  exact
    { kept := by
        rw [Archive.isKept, hdisk]
        exact hs.kept
      sound := Archive.ReadsAs.sound (t := { u with nextId := Table.followingId u.rows })
        (Archive.readsAs_encode (t := u) hs.sound) (le_refl _)
      name := hs.name
      small := hs.small
      file := by
        rw [hdisk]
        exact hs.file
      resident := fun d hd => by cases hd
      away := fun _ => rfl }

/-- What an event makes of a table that stands: nothing, or what is in its file, or what the statement
of a command changes it to. -/
inductive Brings (e : Engine) (x t : Text) (u : Table) : Event → Table → Prop
  | same {v : Event} : Brings e x t u v u
  | restart : Brings e x t u .restart { u with nextId := Table.followingId u.rows }
  | change {v : Event} {s : Statement} {w : Table} (carried : e.carried? v = some (some x, s))
    (about : s.table? = some t) (turns : s.Turns u w) : Brings e x t u v w

/-- A table that is not dropped stands after an event. -/
theorem Steady.stands_after (h : e.Steady) (hs : e.catalog.Stands x t u)
    (hn : e.Undisturbed [v]) (hd : e.drops x t v = false) :
    ∃ w, (e.after v).catalog.Stands x t w ∧ e.Brings x t u v w := by
  cases v with
  | openSession => exact ⟨u, hs, .same⟩
  | closeSession id =>
    refine ⟨u, ?_, .same⟩
    change (e.closeSession id).2.catalog.Stands x t u
    rw [closeSession_catalog]
    exact hs
  | restart => exact ⟨_, h.stands_restart hs, .restart⟩
  | command text id =>
    have hs' := Catalog.stands_calmed.2 hs
    obtain ⟨disk, r, turns, ⟨-, rfl, rfl⟩ | ⟨s, hread, ⟨result, hout, does⟩ | ⟨f, hout, does⟩⟩⟩ :=
      h.execute_catalog text id
    · exact ⟨u, Catalog.stands_calmed.1 (hs'.stays turns), .same⟩
    · have hc : e.carried? (.command text id) = some (e.selection (id.getD defaultId), s) := by
        simp [carried?, hread, hout, Outcome.success]
      rw [drops, hc] at hd
      obtain ⟨w, hw, rfl | ⟨⟨hsel, about⟩, turns'⟩⟩ :=
        hs'.succeeds h.sane (Statement.ofCommand_named hread) does turns
          (by rintro rfl; simp at hd) (fun hsel => by rintro rfl; simp [hsel] at hd)
      · exact ⟨w, Catalog.stands_calmed.1 hw, .same⟩
      · exact ⟨w, Catalog.stands_calmed.1 hw, .change (hsel ▸ hc) about turns'⟩
    · have hf : ¬ f.OfDisk := hn _ List.mem_cons_self f (congrArg Outcome.result hout)
      exact ⟨u, Catalog.stands_calmed.1 (hs'.fails hf does turns), .same⟩

/-- The next id of a table may decrease only in a restart, and then not below an id that is left. -/
theorem Brings.lt_nextId {w : Table} (h : e.Brings x t u v w) (hs : e.catalog.Stands x t u) {m : Nat}
    (hm : m < u.nextId) (hr : v = .restart → e.retains x t m) : m < w.nextId := by
  cases h with
  | same => exact hm
  | restart => exact retains_of_stands hs (hr rfl)
  | change _ _ turns => exact Nat.lt_of_lt_of_le hm turns.nextId_le

theorem exists_of_makes (hv : e.makes x t v) :
    ∃ columns, e.carried? v = some (some x, .createTable t columns) := by
  unfold makes at hv
  split at hv
  · next y name columns hc =>
    simp only [Bool.and_eq_true, decide_eq_true_eq] at hv
    obtain ⟨rfl, rfl⟩ := hv
    exact ⟨columns, hc⟩
  · cases hv

theorem exists_of_givenId? {m : Nat} (hv : e.givenId? x t v = some m) :
    (∃ values, e.carried? v = some (some x, .insert t values)) ∧
      ∃ d u, (e.after v).catalog.resident.get? x = some d ∧ d.tables.get? t = some u ∧
        u.rows.getLast?.map Table.rowId = some m := by
  unfold givenId? at hv
  split at hv
  · next y name values hc =>
    rw [Option.ite_none_right_eq_some] at hv
    obtain ⟨⟨rfl, rfl⟩, hv⟩ := hv
    obtain ⟨d, hd, hv⟩ := Option.bind_eq_some_iff.1 hv
    obtain ⟨u, hu, hv⟩ := Option.bind_eq_some_iff.1 hv
    exact ⟨⟨values, hc⟩, d, u, hd, hu, hv⟩
  · cases hv

/-- A table that an event makes stands. -/
theorem Steady.stands_of_makes (h : e.Steady) (hv : e.makes x t v) :
    ∃ u, (e.after v).catalog.Stands x t u := by
  obtain ⟨columns, hc⟩ := exists_of_makes hv
  obtain ⟨hnamed, result, disk, r, does, turns⟩ := h.succeeds_of_carried? hc
  cases does with
  | @createTable x t columns d new chosen held fresh created writable =>
    cases chosen
    have hname : new.name = t := by rw [(Table.create_eq_ok created).2]
    subst hname
    exact ⟨new, Catalog.stands_calmed.1 (Catalog.stands_putFile h.sane.settled held
      (Table.create_sound created) (Name.IsWord.small hnamed) turns)⟩
  | edit about => cases about

/-- A row that is inserted gets the next id of its table. -/
theorem Steady.of_givenId? (h : e.Steady) (hs : e.catalog.Stands x t u) {m : Nat}
    (hv : e.givenId? x t v = some m) :
    m = u.nextId ∧ ∃ w, (e.after v).catalog.Stands x t w ∧ w.nextId = m + 1 := by
  obtain ⟨⟨values, hc⟩, d, w, hd, hw, hlast⟩ := exists_of_givenId? hv
  obtain ⟨-, result, disk, r, does, turns⟩ := h.succeeds_of_carried? hc
  obtain ⟨row, w', hins, hw'⟩ := (Catalog.stands_calmed.2 hs).inserted h.sane does turns
  have hs' := Catalog.stands_calmed.1 hw'
  cases hw.symm.trans (hs'.resident d hd)
  obtain ⟨cells, -, -, -, rfl, rfl⟩ := Table.insert_eq_ok hins
  obtain rfl : u.nextId = m := by simpa using hlast
  exact ⟨rfl, _, hs', rfl⟩

/-! ## Runs -/

/-- A table that is not dropped in a run stands after it. An id below its next one stays below, if at
each restart a row with this id or a larger one is left. -/
theorem Steady.stands_afterAll (h : e.Steady) (hs : e.catalog.Stands x t u)
    (hn : e.Undisturbed vs) (hd : e.lasts x t vs) :
    ∃ w, (e.afterAll vs).catalog.Stands x t w ∧
      ∀ m < u.nextId, e.retainsThroughout x t m vs → m < w.nextId := by
  -- The table may be another one after each event. What goes along from one to the next is only that
  -- the id is below the next id.
  induction vs generalizing e u with
  | nil => exact ⟨u, hs, fun m hm _ => hm⟩
  | cons v vs ih =>
    obtain ⟨hnv, hnvs⟩ := undisturbed_cons.1 hn
    simp only [lasts, Bool.and_eq_true, Bool.not_eq_true'] at hd
    obtain ⟨w, hw, hbrings⟩ := h.stands_after hs hnv hd.1
    obtain ⟨w', hw', hrun⟩ := ih (h.after v) hw hnvs hd.2
    refine ⟨w', hw', fun m hm hr => hrun m (hbrings.lt_nextId hs hm ?_) ?_⟩
    · rintro rfl
      simp only [retainsThroughout, bne_self_eq_false, Bool.false_or, Bool.and_eq_true] at hr
      exact hr.1
    · simp only [retainsThroughout, Bool.and_eq_true] at hr
      exact hr.2

/-- From when a table is made until it is dropped, rows that are inserted get larger and larger ids,
if at each restart between two of them a row with the id of the first or a larger one is left. -/
theorem given_ids_increase {o : Options} {disk : Disk} (ho : o.Plain) (hd : disk.Proper)
    {us vs ws : List Event} {create first second : Event} {m n : Nat}
    (hn : (start o disk).Undisturbed (us ++ create :: (vs ++ first :: (ws ++ [second])))) :
    let e := (start o disk).afterAll us
    let e₁ := (e.after create).afterAll vs
    let e₂ := (e₁.after first).afterAll ws
    e.makes x t create → (e.after create).lasts x t (vs ++ first :: ws) →
      e₁.givenId? x t first = some m → (e₁.after first).retainsThroughout x t m ws →
      e₂.givenId? x t second = some n → m < n := by
  intro e e₁ e₂ hmakes hlasts hm hkeep hsecond
  have hstart : (start o disk).Steady := start_steady_of_proper ho hd
  have he : e.Steady := hstart.afterAll us
  obtain ⟨-, hn⟩ := undisturbed_append.1 hn
  obtain ⟨-, hn⟩ := undisturbed_cons.1 hn
  obtain ⟨hvs, hn⟩ := undisturbed_append.1 hn
  obtain ⟨-, hn⟩ := undisturbed_cons.1 hn
  obtain ⟨hws, -⟩ := undisturbed_append.1 hn
  rw [lasts_append, Bool.and_eq_true] at hlasts
  have hlasts' : (e₁.after first).lasts x t ws := by
    have h := hlasts.2
    simp only [lasts, Bool.and_eq_true] at h
    exact h.2
  -- The table stands from when it is made, is there when the first row gets its next id, and has a
  -- larger one from then on.
  obtain ⟨u, hu⟩ := he.stands_of_makes hmakes
  obtain ⟨w, hw, -⟩ := (he.after create).stands_afterAll hu hvs hlasts.1
  have he₁ : e₁.Steady := (he.after create).afterAll vs
  obtain ⟨-, w', hw', hnext⟩ := he₁.of_givenId? hw hm
  obtain ⟨z, hz, hless⟩ := (he₁.after first).stands_afterAll hw' hws hlasts'
  have he₂ : e₂.Steady := (he₁.after first).afterAll ws
  rw [(he₂.of_givenId? hz hsecond).1]
  exact hless m (by omega) hkeep

/-- A row stays, the engine is restarted, and the next row gets the next id. -/
theorem given_ids_increase_over_restart :
    let o : Options := ⟨['.', 't', 'a', 'b'], false, .append, ['1']⟩
    let us : List Event :=
      [.command "CREATE DATABASE d;".toList none, .command "USE d;".toList none]
    let create : Event := .command "CREATE TABLE t (a);".toList none
    let first : Event := .command "INSERT INTO t VALUES ('x');".toList none
    let ws : List Event := [.restart, .command "USE d;".toList none]
    let second : Event := .command "INSERT INTO t VALUES ('y');".toList none
    let e₁ := ((start o (Disk.empty ['r'])).afterAll us).after create
    let e₂ := (e₁.after first).afterAll ws
    e₁.givenId? ['d'] ['t'] first = some 1 ∧ e₂.givenId? ['d'] ['t'] second = some 2 ∧ 1 < 2 := by
  intro o us create first ws second e₁ e₂
  have hm : e₁.givenId? ['d'] ['t'] first = some 1 := by decide +kernel
  have hsecond : e₂.givenId? ['d'] ['t'] second = some 2 := by decide +kernel
  have hmakes : ((start o (Disk.empty ['r'])).afterAll us).makes ['d'] ['t'] create := by
    decide +kernel
  have hlasts : e₁.lasts ['d'] ['t'] (first :: ws) := by decide +kernel
  have hkeep : (e₁.after first).retainsThroughout ['d'] ['t'] 1 ws := by decide +kernel
  have hall : ∀ a ∈ (start o (Disk.empty ['r'])).outcomes
      (us ++ create :: ([] ++ first :: (ws ++ [second]))), a.success := by decide +kernel
  exact ⟨hm, hsecond, given_ids_increase ⟨by decide, by decide, by decide⟩ (Disk.empty_proper _)
    (undisturbed_of_success hall) hmakes hlasts hm hkeep hsecond⟩

/-- No row stays, the engine is restarted, and the id that was given first comes again. -/
theorem given_id_comes_again :
    let o : Options := ⟨['.', 't', 'a', 'b'], false, .append, ['1']⟩
    let us : List Event :=
      [.command "CREATE DATABASE d;".toList none, .command "USE d;".toList none]
    let create : Event := .command "CREATE TABLE t (a);".toList none
    let first : Event := .command "INSERT INTO t VALUES ('x');".toList none
    let ws : List Event :=
      [.command "DELETE FROM t;".toList none, .restart, .command "USE d;".toList none]
    let second : Event := .command "INSERT INTO t VALUES ('y');".toList none
    let e := (start o (Disk.empty ['r'])).afterAll us
    let e₁ := e.after create
    let e₂ := (e₁.after first).afterAll ws
    (∀ a ∈ (start o (Disk.empty ['r'])).outcomes (us ++ create :: first :: (ws ++ [second])),
      a.success) ∧
    e.makes ['d'] ['t'] create ∧ e₁.lasts ['d'] ['t'] (first :: ws) ∧
    e₁.givenId? ['d'] ['t'] first = some 1 ∧ e₂.givenId? ['d'] ['t'] second = some 1 := by
  decide +kernel

end Tabular.Engine
