import Tabular.Proofs.Catalog.Regular
import Tabular.Proofs.Engine.Calm
import Tabular.Proofs.Engine.Chronicle
import Tabular.Proofs.Engine.Ids

/-!
# Footprints

What a statement may change: nothing, one table with its file, or one database with its directory.
After every run that began on an empty disk a statement that succeeds changes no more than that, and
one that fails changes nothing. In any weather, every place that changes is regular: the weather may
refuse all calls from some call on, so that this is said of the tree after each single call, and of
temporary files too.
-/

namespace Tabular

namespace Engine

/-- The table of a resident database. -/
def table? (e : Engine) (x k : Text) : Option Table :=
  (e.catalog.resident.get? x).bind (·.tables.get? k)

/-! ## What changes -/

/-- No file, no resident database and no selection is changed. -/
structure Unchanged (e e' : Engine) : Prop where
  files : e'.disk.entries = e.disk.entries
  databases : e'.catalog.resident = e.catalog.resident
  selections : ∀ id, e'.selection id = e.selection id

/-- At most one table and its file are changed. -/
structure ChangesTable (suffix x t : Text) (e e' : Engine) : Prop where
  files : ∀ p, p ≠ [x, t ++ suffix] → e'.disk.entries.get? p = e.disk.entries.get? p
  databases : ∀ y, y ≠ x → e'.catalog.resident.get? y = e.catalog.resident.get? y
  tables : ∀ k, k ≠ t → e'.table? x k = e.table? x k
  selections : ∀ id, e'.selection id = e.selection id

/-- At most one database, its directory and what is in it are changed. -/
structure ChangesDatabase (x : Text) (e e' : Engine) : Prop where
  files : ∀ p, ¬ [x] <+: p → e'.disk.entries.get? p = e.disk.entries.get? p
  databases : ∀ y, y ≠ x → e'.catalog.resident.get? y = e.catalog.resident.get? y

end Engine

open Engine (Unchanged ChangesTable ChangesDatabase)

/-- What a statement that succeeds in a session does, and all that it does. Using a database may load
it, which changes no database that a name refers to. -/
def Statement.Effect (suffix id : Text) (e e' : Engine) : Statement → Prop
  | select _ _ _ | join _ _ _ _ => Unchanged e e'
  | use x =>
    e'.disk.entries = e.disk.entries ∧
      (∀ y, e'.catalog.found y = e.catalog.found y) ∧
      (∀ y d, e.catalog.resident.get? y = some d → e'.catalog.resident.get? y = some d) ∧
      ∀ id', e'.selection id' = if id = id' then some x else e.selection id'
  | insert t _ | update t _ _ | delete t _ | alterTable t _ _ =>
    ∃ x old new, e.selection id = some x ∧ ChangesTable suffix x t e e' ∧
      e.table? x t = some old ∧ e'.table? x t = some new
  | createTable t columns =>
    ∃ x new, e.selection id = some x ∧ ChangesTable suffix x t e e' ∧
      Table.create t columns = .ok new ∧
      e.table? x t = none ∧ e'.table? x t = some new ∧
      e.disk.entries.get? [x, t ++ suffix] = none ∧
      e'.disk.entries.get? [x, t ++ suffix] = some (.file (Utf8.encode new.encode))
  | dropTable t =>
    ∃ x old, e.selection id = some x ∧ ChangesTable suffix x t e e' ∧
      e.table? x t = some old ∧ e'.table? x t = none ∧
      e.disk.entries.get? [x, t ++ suffix] = some (.file (Utf8.encode old.encode)) ∧
      e'.disk.entries.get? [x, t ++ suffix] = none
  | createDatabase x =>
    ChangesDatabase x e e' ∧
      e.catalog.resident.get? x = none ∧ e'.catalog.resident.get? x = some (Database.empty x) ∧
      (∀ p, e.disk.entries.get? (x :: p) = none) ∧
      (∀ p, e'.disk.entries.get? (x :: p) = if p = [] then some .directory else none) ∧
      ∀ id', e'.selection id' = e.selection id'
  | dropDatabase x =>
    ChangesDatabase x e e' ∧ e'.catalog.resident.get? x = none ∧
      (∀ p, e'.disk.entries.get? (x :: p) = none) ∧
      ∀ id', e'.selection id' = if e.selection id' = some x then none else e.selection id'

namespace Engine

variable {e e' : Engine} {id x t : Text} {s : Statement} {book : Book} {f : Failure}

/-! ## Statements that succeed on a calm disk -/

theorem selection_forgetting (e : Engine) (x id : Text) :
    (e.forgetting x).selection id = if e.selection id = some x then none else e.selection id := by
  have hget : (e.forgetting x).selection id = (e.sessions.get? id).bind fun sess =>
      if sess.database = some x then none else sess.database := by
    rw [selection, forgetting, OrderedMap.get?_map]
    cases e.sessions.get? id with
    | none => rfl
    | some sess =>
      simp only [Option.map_some, Option.bind_some]
      split <;> rfl
  rw [hget]
  by_cases h : e.selection id = some x
  · obtain ⟨sess, hs, hd⟩ := Option.bind_eq_some_iff.1 h
    rw [if_pos h, hs, Option.bind_some, if_pos hd]
  · rw [if_neg h, selection]
    refine Option.bind_congr fun sess hs => if_neg fun hd => h ?_
    rw [selection, hs, Option.bind_some, hd]

theorem table?_eq {d : Database} (hr : e.catalog.resident.get? x = some d) (k : Text) :
    e.table? x k = d.tables.get? k := by
  rw [table?, hr]
  rfl

section Turns

variable {disk : Disk} {r : OrderedMap Text Database}

theorem entries_of_turns (h : e.catalog.Turns disk r e'.catalog) :
    e'.disk.entries = disk.entries := by
  have hentries := congrArg Disk.entries h.disk
  exact hentries

theorem resident_of_turns (h : e.catalog.Turns disk r e'.catalog) : e'.catalog.resident = r :=
  h.resident

theorem unchanged_of_same (hb : e.catalog.Same e'.catalog)
    (hsel : ∀ id, e'.selection id = e.selection id) : Unchanged e e' where
  files := (entries_of_turns hb).trans rfl
  databases := resident_of_turns hb
  selections := hsel

theorem Unchanged.table? (h : Unchanged e e') (x k : Text) : e'.table? x k = e.table? x k := by
  rw [Engine.table?, h.databases]
  rfl

theorem Unchanged.changesTable (h : Unchanged e e') (suffix x t : Text) :
    ChangesTable suffix x t e e' :=
  ⟨fun p _ => by rw [h.files], fun y _ => by rw [h.databases], fun k _ => h.table? x k, h.selections⟩

/-- Of one resident database one table is changed, and of its files one. -/
theorem changesTable_of_put {d d' : Database} (hr : e.catalog.resident.get? x = some d)
    (hb : e.catalog.Turns disk (e.catalog.resident.put x d') e'.catalog)
    (htables : ∀ k, k ≠ t → d'.tables.get? k = d.tables.get? k)
    (hfiles : ∀ p, p ≠ [x, t ++ e.catalog.archive.suffix] →
      disk.entries.get? p = e.disk.entries.get? p)
    (hsel : ∀ id, e'.selection id = e.selection id) :
    ChangesTable e.catalog.archive.suffix x t e e' ∧ ∀ k, e'.table? x k = d'.tables.get? k := by
  have hres := resident_of_turns hb
  have htable : ∀ k, e'.table? x k = d'.tables.get? k :=
    table?_eq (by rw [hres, OrderedMap.get?_put_same])
  refine ⟨⟨?_, ?_, ?_, hsel⟩, htable⟩
  · intro p hp
    rw [entries_of_turns hb]
    exact hfiles p hp
  · intro y hy
    rw [hres, OrderedMap.get?_put_other _ _ (Ne.symm hy)]
  · intro k hk
    rw [htable, table?_eq hr, htables k hk]

/-- Of a database that is used, and of all others, what a name refers to stays the same. -/
theorem found_of_used {d : Database} (hf : e.catalog.found x = .ok d)
    (hb : e.catalog.Turns e.catalog.calmed.archive.disk (e.catalog.heldAfter x) e'.catalog)
    (y : Text) : e'.catalog.found y = e.catalog.found y := by
  have hres := resident_of_turns hb
  have hfound : e'.catalog.calmed.found y = e.catalog.calmed.found y := by
    by_cases hxy : x = y
    · subst hxy
      refine (Catalog.found_of_get? (d := d) ?_).trans hf.symm
      exact (congrArg (·.get? x) hres).trans (Catalog.get?_heldAfter hf)
    · refine Catalog.found_congr ?_ ?_ ?_ fun _ => ?_
      · exact (congrArg (·.get? y) hres).trans (Catalog.get?_heldAfter_other hxy)
      · rw [Archive.isKept, Archive.isKept, hb.disk]
      · rw [hb.disk]
      · exact Archive.database_eq_of_disk hb.disk hb.suffix
  exact hfound

/-- A change of a table changes that table, and nothing at all if there is none to make. -/
theorem changes_of_edit (hw : e.catalog.Written book) (ht : Name.IsWord t) {d : Database}
    (hr : e.catalog.resident.get? x = some d) {old : Table} {result : Result}
    {edit : Catalog.Edit} (hold : d.tables.get? (Text.lower t) = some old)
    (hedit : s.edit old = .ok (result, edit)) (hcarried : e.catalog.calmed.Carried x edit disk)
    (hb : e.catalog.Turns disk (edit.made x d e.catalog.resident) e'.catalog)
    (hsel : ∀ id, e'.selection id = e.selection id) :
    (edit.table? = none → Unchanged e e') ∧
      ∃ old new, ChangesTable e.catalog.archive.suffix x t e e' ∧ e.table? x t = some old ∧
        e'.table? x t = some new := by
  rw [ht.small] at hold
  have hkeeps := hw.holds.databases x d (hw.resident x d hr)
  have hfits := Statement.edit_fits (hkeeps.table_sound t old hold) hedit
  have hbefore : e.table? x t = some old := (table?_eq hr t).trans hold
  cases hn : edit.table? with
  | none =>
    have hdisk : disk = e.catalog.calmed.archive.disk := by
      cases hcarried <;> first | rfl | cases hn
    rw [Catalog.Edit.made, hn, hdisk] at hb
    have hsame := unchanged_of_same hb hsel
    exact ⟨fun _ => hsame, old, old, hsame.changesTable .., hbefore, (hsame.table? x t).trans hbefore⟩
  | some new =>
    have hname : new.name = t := (hfits.table hn).2.trans (hkeeps.table_name t old hold).1
    have hword : Name.IsWord new.name := hname ▸ ht
    have hput : ∃ content, disk = (e.catalog.calmed.archive.putFile x new.name content).disk := by
      cases hcarried <;> cases hn <;> exact ⟨_, rfl⟩
    obtain ⟨content, rfl⟩ := hput
    rw [Catalog.Edit.made, hn] at hb
    obtain ⟨hc, htable⟩ := changesTable_of_put (t := t) hr hb
      (fun k hk => by rw [Archive.get?_replace hword, hname, if_neg (Ne.symm hk)])
      (fun p hp => OrderedMap.get?_put_other _ _ (by rw [hname]; exact Ne.symm hp)) hsel
    refine ⟨(fun h => by cases h), old, new, hc, hbefore, ?_⟩
    rw [htable, Archive.get?_replace hword, hname, if_pos rfl]

/-- A statement about one table selects nothing. -/
theorem selection_reseated_of_table (ht : s.table? = some t) (id' : Text) :
    (e.reseated id s).selection id' = e.selection id' := by
  cases s <;> first | rfl | cases ht

/-- What a statement that succeeds does to the catalog and the selections is its effect. -/
theorem effect_of_succeeds (hw : e.catalog.Written book) (hs : s.Named) {sess : Session}
    (hid : e.sessions.get? id = some sess) {result : Result}
    (hdoes : e.catalog.calmed.Succeeds (e.selection id) s result disk r)
    (hb : e.catalog.Turns disk r e'.catalog)
    (hsel : ∀ id', e'.selection id' = (e.reseated id s).selection id') :
    s.Effect e.catalog.archive.suffix id e e' := by
  have hplain := hw.plain
  have hentries := entries_of_turns hb
  have hres := resident_of_turns hb
  cases hdoes with
  | @use x d found =>
    refine ⟨hentries, found_of_used found hb, ?_, ?_⟩
    · intro y d' hy
      have hhas : e.catalog.calmed.resident.has y := Option.isSome_iff_exists.2 ⟨d', hy⟩
      rw [hres, Catalog.has_heldAfter hhas]
      exact hy
    · intro id'
      rw [hsel, reseated, selection_withSession, hid]
      rfl
  | @createDatabase x fits free =>
    have hnone : book x = none :=
      Option.map_eq_none_iff.1 ((hw.holds.directories x).symm.trans free)
    refine ⟨⟨?_, ?_⟩, ?_, ?_, hw.holds.get?_eq_none hnone, ?_, hsel⟩
    · intro p hp
      rw [hentries]
      exact OrderedMap.get?_put_other _ _ (by rintro rfl; simp at hp)
    · intro y hy
      rw [hres]
      exact OrderedMap.get?_put_other _ _ (Ne.symm hy)
    · by_contra hne
      obtain ⟨d, hd⟩ := Option.ne_none_iff_exists'.1 hne
      cases hnone.symm.trans (hw.resident x d hd)
    · rw [hres, OrderedMap.get?_put_same]
    · intro p
      rw [hentries, Disk.put_entries, OrderedMap.get?_put]
      by_cases hp : p = []
      · simp [hp]
      · rw [if_neg (by simpa using Ne.symm hp), if_neg hp]
        exact hw.holds.get?_eq_none hnone p
  | @dropDatabase x =>
    refine ⟨⟨?_, ?_⟩, ?_, ?_, ?_⟩
    · intro p hp
      rw [hentries, Disk.get?_cut, if_neg hp]
      rfl
    · intro y hy
      rw [hres]
      exact OrderedMap.get?_erase_other _ (Ne.symm hy)
    · rw [hres, OrderedMap.get?_erase_same]
    · intro p
      rw [hentries, Disk.get?_cut_cons, if_pos rfl]
    · intro id'
      rw [hsel, reseated, selection_forgetting]
  | @createTable x t columns d new chosen held fresh created _ =>
    have hname : new.name = t := by rw [(Table.create_eq_ok created).2]
    have hword : Name.IsWord new.name := hname ▸ hs
    have hold : d.tables.get? t = none := by
      have hnone := OrderedMap.has_eq_false_iff.1 fresh
      rwa [Name.IsWord.small hs] at hnone
    obtain ⟨hc, htable⟩ := changesTable_of_put (t := t) held hb
      (fun k hk => by rw [Archive.get?_replace hword, hname, if_neg (Ne.symm hk)])
      (fun p hp => OrderedMap.get?_put_other _ _ (by rw [hname]; exact Ne.symm hp)) hsel
    refine ⟨x, new, chosen, hc, created, ?_, ?_, ?_, ?_⟩
    · rw [table?_eq held, hold]
    · rw [htable, Archive.get?_replace hword, hname, if_pos rfl]
    · exact (hw.holds.get?_fileName hplain (hw.resident x d held) t).trans (by rw [hold]; rfl)
    · rw [hentries, ← hname]
      exact OrderedMap.get?_put_same ..
  | @dropTable x t d old chosen held there =>
    have hold : d.tables.get? t = some old := by
      have hget := Database.get_eq_ok_iff.1 there
      rwa [Name.IsWord.small hs] at hget
    obtain ⟨hc, htable⟩ := changesTable_of_put (t := t) held hb
      (fun k hk => by rw [Archive.get?_drop hs, if_neg (Ne.symm hk)])
      (fun p hp => OrderedMap.get?_erase_other _ (Ne.symm hp)) hsel
    refine ⟨x, old, chosen, hc, ?_, ?_, ?_, ?_⟩
    · rw [table?_eq held, hold]
    · rw [htable, Archive.get?_drop hs, if_pos rfl]
    · exact (hw.holds.get?_fileName hplain (hw.resident x d held) t).trans (by rw [hold]; rfl)
    · rw [hentries]
      exact OrderedMap.get?_erase_same ..
  | @edit s x t d old result edit disk about chosen held there worked written =>
    have heffect := changes_of_edit hw (Statement.named_table hs about) held there worked written hb
      fun id' => (hsel id').trans (selection_reseated_of_table about id')
    cases s with
    | select =>
      cases Statement.asks_of_edit worked with
      | select => exact heffect.1 rfl
      | nothing about => cases about
    | insert | update | delete | alterTable =>
      cases about
      obtain ⟨old, new, hc, hold, hnew⟩ := heffect.2
      exact ⟨x, old, new, chosen, hc, hold, hnew⟩
    | _ => cases about
  | join => exact ⟨hentries, hres, hsel⟩

end Turns

/-! ## Commands -/

/-- A statement that fails changes nothing. -/
theorem Steady.unchanged_of_error (h : e.Steady) (hw : e.catalog.Written book) (hs : s.Named)
    (hrun : (perform id s).run e = (.error f, e')) : Unchanged e e' := by
  have hb := h.stays_of_error hw hs hrun
  have hcomes := h.comes hs id
  rw [hrun] at hcomes
  cases hcomes with
  | fails _ _ _ sessions =>
    refine ⟨congrArg Disk.entries hb.disk, hb.resident, fun id' => ?_⟩
    rw [selection, sessions]
    rfl

/-- A statement that succeeds has its effect, and is counted for its session. -/
theorem Steady.effect_of_ok (h : e.Steady) (hw : e.catalog.Written book) (hs : s.Named)
    {sess : Session} (hid : e.sessions.get? id = some sess) {result : Result}
    (hrun : (perform id s).run e = (.ok result, e')) :
    s.Effect e.catalog.archive.suffix id e
      ((e'.withSession id fun s => { s with executed := s.executed + 1 }).record s.label true) := by
  have hcomes := h.comes hs id
  rw [hrun] at hcomes
  cases hcomes with
  | succeeds honest turns does sessions =>
    refine effect_of_succeeds hw hs hid does ?_ fun id' => ?_
    · rwa [record_catalog, withSession_catalog]
    · refine (selection_counted e' id id').trans ?_
      rw [selection, sessions]
      rfl

/-- A command that succeeds has the effect of its statement, and any other one has none. -/
theorem Steady.execute_effect (h : e.Steady) (hw : e.catalog.Written book) {command : Text}
    {key : Option Text} {outcome : Outcome} (hex : e.execute command key = (outcome, e')) :
    (outcome.success = false → Unchanged e e') ∧
      (outcome.success → ∃ s, Statement.ofCommand command = .ok s ∧
        s.Effect e.catalog.archive.suffix (key.getD defaultId) e e') := by
  have hnothing : Unchanged e (e.record .unknown false) := ⟨rfl, rfl, fun _ => rfl⟩
  cases hid : e.session key with
  | error cause =>
    simp only [Engine.execute, hid] at hex
    cases hex
    exact ⟨fun _ => hnothing, fun h => by cases h⟩
  | ok sess =>
    cases hread : Statement.ofCommand command with
    | error cause =>
      simp only [Engine.execute, hid, hread] at hex
      cases hex
      exact ⟨fun _ => hnothing, fun h => by cases h⟩
    | ok s =>
      have hs := Statement.ofCommand_named hread
      cases hrun : (perform (key.getD defaultId) s).run e with
      | mk r e₁ =>
        rw [execute_run hid hread hrun] at hex
        cases hex
        cases r with
        | error f =>
          have hsame := h.unchanged_of_error hw hs hrun
          exact ⟨fun _ => ⟨hsame.files, hsame.databases, hsame.selections⟩, fun h => by cases h⟩
        | ok result =>
          have hget := session_eq_ok_iff.1 hid
          exact ⟨(fun h => by cases h), fun _ => ⟨s, rfl, h.effect_of_ok hw hs hget hrun⟩⟩

/-! ## Places in any weather -/

theorem Steady.chosen (h : e.Steady) : e.Chosen := fun id x hx => (h.seated id x hx).1

/-- One happening keeps an engine tidy and changes the disk at regular places only. -/
theorem Steady.tidy_meet (h : e.Steady) (ht : e.catalog.calmed.Tidy) (v : Happening) :
    (e.meet v).catalog.calmed.Tidy ∧
      (e.meet v).catalog.archive.suffix = e.catalog.archive.suffix ∧
      ∀ p, (e.meet v).disk.entries.get? p ≠ e.disk.entries.get? p →
        Archive.Regular e.catalog.archive.suffix p := by
  have hsame {c : Catalog} (hc : c = e.catalog) : c.calmed.Tidy ∧
      c.archive.suffix = e.catalog.archive.suffix ∧
      ∀ p, c.archive.disk.entries.get? p ≠ e.disk.entries.get? p →
        Archive.Regular e.catalog.archive.suffix p := by
    subst hc
    exact ⟨ht, rfl, fun p hp => absurd rfl hp⟩
  cases v with
  | weather w => exact ⟨⟨ht.places, ht.names⟩, rfl, fun p hp => absurd rfl hp⟩
  | event v =>
    cases v with
    | command text key =>
      obtain ⟨disk, r, turns, ⟨-, rfl, rfl⟩ | ⟨s, hread, ⟨result, -, does⟩ | ⟨f, -, does⟩⟩⟩ :=
        h.execute_catalog text key
      · refine ⟨ht.becomes turns (fun p hp => absurd rfl hp) ht.names, turns.suffix, fun p hp => ?_⟩
        exact absurd (congrArg (·.get? p) (entries_of_turns turns)) hp
      · have hs := Statement.ofCommand_named hread
        refine ⟨ht.succeeds h.sane hs (h.chosen _) does turns, turns.suffix, fun p hp => ?_⟩
        refine ht.regular_of_succeeds h.sane hs (h.chosen _) does ?_
        rwa [← entries_of_turns turns]
      · have hs := Statement.ofCommand_named hread
        refine ⟨ht.fails h.sane hs (h.chosen _) does turns, turns.suffix, fun p hp => ?_⟩
        refine ht.regular_of_fails h.sane hs (h.chosen _) does ?_
        rwa [← entries_of_turns turns]
    | openSession => exact hsame rfl
    | closeSession id => exact hsame (closeSession_catalog e id)
    | restart =>
      have hdisk : e.restart.disk = e.disk := restart_disk h.sane.settled.proper.root
      refine ⟨⟨fun p entry hp => ?_, fun x d hx => by cases hx⟩, rfl, fun p hp => ?_⟩
      · exact ht.places p entry ((congrArg (·.entries.get? p) hdisk).symm.trans hp)
      · exact absurd (congrArg (·.entries.get? p) hdisk) hp

theorem Steady.tidy_meetAll (h : e.Steady) (ht : e.catalog.calmed.Tidy) (hs : List Happening) :
    (e.meetAll hs).catalog.calmed.Tidy ∧
      (e.meetAll hs).catalog.archive.suffix = e.catalog.archive.suffix := by
  induction hs generalizing e with
  | nil => exact ⟨ht, rfl⟩
  | cons v hs ih =>
    obtain ⟨htidy, hsuffix, -⟩ := h.tidy_meet ht v
    obtain ⟨htidy', hsuffix'⟩ := ih (h.meet v) htidy
    exact ⟨htidy', hsuffix'.trans hsuffix⟩

/-- A new engine over an empty root. -/
theorem start_tidy (o : Options) (root : Text) : (start o (Disk.empty root)).catalog.calmed.Tidy where
  places := by
    intro p entry hp
    have hget : (OrderedMap.empty.put [] Entry.directory).get? p = some entry := hp
    rw [OrderedMap.get?_put] at hget
    split at hget
    · next he => exact .inl he.symm
    · cases hget
  names := fun x d hx => by cases hx

/-! ## Runs from an empty root -/

theorem afterAll_engine (c : Chronicle) (vs : List Event) :
    (c.afterAll vs).engine = c.engine.afterAll vs := by
  induction vs generalizing c with
  | nil => rfl
  | cons v vs ih => exact ih (c.next v)

theorem meetAll_events (e : Engine) (vs : List Event) :
    e.meetAll (vs.map .event) = e.afterAll vs := List.foldl_map

/-- After every run from an empty root, a command that succeeds in any session does what its
statement is for and no more, and any other command changes nothing. Whatever the disk refuses, all
that any happening changes there is at regular places. -/
theorem stays_within_footprint {o : Options} (ho : o.Plain) (root : Text) :
    (∀ vs command key,
      let e := (start o (Disk.empty root)).afterAll vs
      let r := e.execute command key
      (r.1.success = false → Unchanged e r.2) ∧
        (r.1.success → ∃ s, Statement.ofCommand command = .ok s ∧
          s.Effect o.suffix (key.getD defaultId) e r.2)) ∧
    ∀ hs v p,
      let e := (start o (Disk.empty root)).meetAll hs
      (e.meet v).disk.entries.get? p ≠ e.disk.entries.get? p → Archive.Regular o.suffix p := by
  have hstart : (start o (Disk.empty root)).Steady :=
    start_steady_of_proper ho (Disk.empty_proper root)
  constructor
  · intro vs command key e r
    obtain ⟨book, hkept⟩ := (Chronicle.begin_kept root ho).afterAll vs
    have hw := hkept.written
    rw [afterAll_engine] at hw
    have hsuffix := (hstart.tidy_meetAll (start_tidy o root) (vs.map .event)).2
    rw [meetAll_events] at hsuffix
    have hex : e.execute command key = (r.1, r.2) := rfl
    have heffect := (hstart.afterAll vs).execute_effect hw hex
    rwa [hsuffix] at heffect
  · intro hs v p e hp
    obtain ⟨htidy, hsuffix⟩ := hstart.tidy_meetAll (start_tidy o root) hs
    have hregular := ((hstart.meetAll hs).tidy_meet htidy v).2.2 p hp
    rwa [hsuffix] at hregular

/-- A session puts a row into one of two tables; and it is stopped while the table is written, so
that a temporary file stays. -/
theorem footprint_of_inserted_row :
    let o : Options := ⟨['.', 't', 'a', 'b'], false, .whole, ['1']⟩
    let id := sessionId 1
    let vs : List Event :=
      [.command "CREATE DATABASE d;".toList none, .openSession, .command "USE d;".toList (some id),
        .command "CREATE TABLE t (a);".toList (some id),
        .command "CREATE TABLE u (a);".toList (some id)]
    let insert := "INSERT INTO T VALUES ('x');".toList
    let full : Weather := ⟨[none, some .diskFull, some .readOnly], ['2'],
      by simp [Errno.saysMissing], by decide⟩
    let draft : Path := [['d'], ['.', 't', '.', '2', '.', 't', 'm', 'p']]
    let e := (start o (Disk.empty ['r'])).afterAll vs
    let stopped := (start o (Disk.empty ['r'])).meetAll (vs.map .event ++ [.weather full])
    (∃ s, Statement.ofCommand insert = .ok s ∧
      s.Effect o.suffix id e (e.execute insert (some id)).2) ∧
    ((stopped.after (.command insert (some id))).disk.entries.get? draft = some (.file []) ∧
      Archive.Regular o.suffix draft) := by
  intro o id vs insert full draft e stopped
  have ho : o.Plain := ⟨by decide, by decide, by decide⟩
  obtain ⟨heffect, hregular⟩ := stays_within_footprint ho ['r']
  have hfile : (stopped.after (.command insert (some id))).disk.entries.get? draft =
      some (.file []) := by decide +kernel
  have hnone : stopped.disk.entries.get? draft = none := by decide +kernel
  refine ⟨(heffect vs insert (some id)).2 (by decide +kernel), hfile,
    hregular (vs.map .event ++ [.weather full]) (.event (.command insert (some id))) draft ?_⟩
  intro hsame
  cases hfile.symm.trans (hsame.trans hnone)

end Engine

end Tabular
