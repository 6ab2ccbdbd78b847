import Tabular.Proofs.Catalog.WriteThrough
import Tabular.Proofs.Engine.Statements

/-!
# Statements write through

Every statement leads from one book to another. Only creating and dropping a database changes which
databases there are, and every other page that changes is about a database that is then resident.
-/

namespace Tabular

/-- The databases that stand once the statement has succeeded or failed. -/
def Statement.standing (s : Statement) (success : Bool) (before : List Text) : List Text :=
  match s, success with
  | createDatabase x, true => x :: before
  | dropDatabase x, true => before.filter (· ≠ x)
  | _, _ => before

/-- The book is about these databases. -/
def Book.Covers (book : Book) (standing : List Text) : Prop :=
  ∀ x, (book x).isSome ↔ x ∈ standing

theorem Book.Covers.update_some {book : Book} {standing : List Text} (h : book.Covers standing)
    (x : Text) (d : Database) : Book.Covers (Function.update book x (some d)) (x :: standing) := by
  intro y
  by_cases hyx : y = x
  · simp [hyx]
  · rw [Function.update_of_ne hyx, h y]
    simp [hyx]

theorem Book.Covers.update_none {book : Book} {standing : List Text} (h : book.Covers standing)
    (x : Text) : Book.Covers (Function.update book x none) (standing.filter (· ≠ x)) := by
  intro y
  by_cases hyx : y = x
  · simp [hyx]
  · rw [Function.update_of_ne hyx, h y]
    simp [hyx]

/-- From one catalog and book to others, in which new databases are resident. -/
structure Catalog.Leads (c : Catalog) (book : Book) (c' : Catalog) (book' : Book) : Prop where
  written : c'.Written book'
  suffix : c'.archive.suffix = c.archive.suffix
  unchanged : ∀ x, c'.resident.get? x = none → (book' x).isSome → book' x = book x

theorem Catalog.Follows.leads {c c' : Catalog} {book book' : Book} (h : c.Follows book c' book') :
    c.Leads book c' book' := ⟨h.written, h.suffix, fun x hx _ => h.unchanged x hx⟩

theorem Catalog.Follows.covers {c c' : Catalog} {book book' : Book} (h : c.Follows book c' book')
    {standing : List Text} (hs : book.Covers standing) : book'.Covers standing := by
  intro x
  rw [h.standing x]
  exact hs x

namespace Engine

/-- Every database that a session has selected is named by a word. -/
def Chosen (e : Engine) : Prop := ∀ id x, e.selection id = some x → Name.IsWord x

theorem Chosen.withSession {e : Engine} (he : e.Chosen) (id : Text) {f : Session → Session}
    (hf : ∀ s x, (f s).database = some x → s.database = some x ∨ Name.IsWord x) :
    (e.withSession id f).Chosen := by
  intro id' x hx
  unfold Engine.withSession at hx
  cases hs : e.sessions.get? id with
  | none =>
    rw [hs] at hx
    exact he id' x hx
  | some s =>
    simp only [hs, selection, OrderedMap.get?_put] at hx
    by_cases hid : id = id'
    · rw [if_pos hid] at hx
      rcases hf s x hx with h | h
      · exact he id x (by simp [selection, hs, h])
      · exact h
    · rw [if_neg hid] at hx
      exact he id' x hx

theorem Chosen.forgetting {e : Engine} (he : e.Chosen) (x : Text) : (e.forgetting x).Chosen := by
  intro id y hy
  simp only [selection, Engine.forgetting, OrderedMap.get?_map] at hy
  cases hs : e.sessions.get? id with
  | none => simp [hs] at hy
  | some s =>
    rw [hs, Option.map_some, Option.bind_some] at hy
    split at hy
    · cases hy
    · exact he id y (by simp [selection, hs, hy])

/-- What becomes of an engine whose catalog follows its book. -/
def Follows (e : Engine) (book : Book) (e' : Engine) (book' : Book) : Prop :=
  e'.Chosen ∧ e.catalog.Follows book e'.catalog book'

variable {e : Engine} {book : Book} {id : Text} {s : Statement}

/-- A statement about one table carries its change out in the catalog that found the table. -/
theorem perform_table_follows (h : e.catalog.Written book) (he : e.Chosen) {t : Text}
    (hs : s.table? = some t) (id : Text) :
    ∃ r e' book', (perform id s).run e = (r, e') ∧ e.Follows book e' book' := by
  cases hsel : e.selection id with
  | none =>
    have hrun := perform_unselected (Statement.isLocal_of_table hs) hsel
    exact ⟨_, e, book, hrun, he, .refl h⟩
  | some x =>
    obtain ⟨r, c, book', hrun, hf, hold⟩ := h.follows_table (he id x hsel) t
    rw [perform_table_run hs hsel hrun]
    cases hp : r >>= s.edit with
    | error f => exact ⟨_, _, book', rfl, he, hf⟩
    | ok p =>
      obtain ⟨result, edit⟩ := p
      obtain ⟨old, hr, hedit⟩ := Except.bind_eq_ok_iff.1 hp
      obtain ⟨d, hres, hget⟩ := hold old hr
      have hsound : old.Sound :=
        (hf.written.holds.databases x d (hf.written.resident x d hres)).table_sound _ old hget
      obtain ⟨c', book'', hcarry, hf'⟩ :=
        hf.written.follows_carry hres hget (Statement.edit_fits hsound hedit)
      exact ⟨_, _, book'', finish_run (e.withCatalog c) hcarry result, he, hf.trans hf'⟩

theorem perform_use_follows (h : e.catalog.Written book) (he : e.Chosen) {x : Text}
    (hx : Name.IsWord x) (id : Text) :
    ∃ r e' book', (perform id (.use x)).run e = (r, e') ∧ e.Follows book e' book' := by
  obtain ⟨c, book', hrun, hf, -⟩ := h.follows_use hx
  rw [perform_use_run id hrun]
  cases e.catalog.found x with
  | error f => exact ⟨_, _, book', rfl, he, hf⟩
  | ok d =>
    have hc : ((e.withCatalog c).withSession id fun s => { s with database := some x }).Chosen := by
      apply Chosen.withSession (e := e.withCatalog c) he id
      rintro s y ⟨⟩
      exact .inr hx
    exact ⟨_, _, book', rfl, hc, by rwa [onSuccess, withSession_catalog]⟩

theorem perform_join_follows (h : e.catalog.Written book) (he : e.Chosen)
    (left right leftColumn rightColumn id : Text) :
    ∃ r e' book', (perform id (.join left right leftColumn rightColumn)).run e = (r, e') ∧
      e.Follows book e' book' := by
  cases hsel : e.selection id with
  | none => exact ⟨_, e, book, perform_unselected rfl hsel, he, .refl h⟩
  | some x =>
    have hx := he id x hsel
    obtain ⟨l, c, book', hl, hf, -⟩ := h.follows_table hx left
    obtain ⟨r, c', book'', hr, hf', -⟩ := hf.written.follows_table hx right
    rw [perform_join_run hsel hl hr]
    cases l with
    | error f => exact ⟨_, _, book', rfl, he, hf⟩
    | ok l => exact ⟨_, _, book'', rfl, he, hf.trans hf'⟩

theorem perform_createTable_follows (h : e.catalog.Written book) (he : e.Chosen) {t : Text}
    (ht : Name.IsWord t) (columns : List Text) (id : Text) :
    ∃ r e' book', (perform id (.createTable t columns)).run e = (r, e') ∧
      e.Follows book e' book' := by
  cases hsel : e.selection id with
  | none => exact ⟨_, e, book, perform_unselected rfl hsel, he, .refl h⟩
  | some x =>
    obtain ⟨r, c, book', hrun, hf⟩ := h.follows_createTable (he id x hsel) ht columns
    exact ⟨_, _, book', perform_createTable_run hsel hrun, he, hf⟩

theorem perform_dropTable_follows (h : e.catalog.Written book) (he : e.Chosen) {t : Text}
    (ht : Name.IsWord t) (id : Text) :
    ∃ r e' book', (perform id (.dropTable t)).run e = (r, e') ∧ e.Follows book e' book' := by
  cases hsel : e.selection id with
  | none => exact ⟨_, e, book, perform_unselected rfl hsel, he, .refl h⟩
  | some x =>
    obtain ⟨r, c, book', hrun, hf⟩ := h.follows_dropTable (he id x hsel) ht
    exact ⟨_, _, book', perform_dropTable_run hsel hrun, he, hf⟩

/-- A statement that neither creates nor drops a database leaves the same databases standing. -/
theorem perform_follows (h : e.catalog.Written book) (he : e.Chosen) (hs : s.Named)
    (hd : ∀ x, s ≠ .createDatabase x ∧ s ≠ .dropDatabase x) (id : Text) :
    ∃ r e' book', (perform id s).run e = (r, e') ∧ e.Follows book e' book' := by
  cases s with
  | use x => exact perform_use_follows h he hs id
  | createDatabase x => exact absurd rfl (hd x).1
  | dropDatabase x => exact absurd rfl (hd x).2
  | createTable t columns => exact perform_createTable_follows h he hs columns id
  | dropTable t => exact perform_dropTable_follows h he hs id
  | join l r lc rc => exact perform_join_follows h he l r lc rc id
  | alterTable t action column => exact perform_table_follows h he rfl id
  | insert t values => exact perform_table_follows h he rfl id
  | select t columns condition => exact perform_table_follows h he rfl id
  | update t assignments condition => exact perform_table_follows h he rfl id
  | delete t condition => exact perform_table_follows h he rfl id

/-- Every statement leads to a book about the databases that then stand. -/
theorem perform_leads (h : e.catalog.Written book) (he : e.Chosen) (hs : s.Named)
    {standing : List Text} (hst : book.Covers standing) (id : Text) :
    ∃ r e' book', (perform id s).run e = (r, e') ∧ e'.Chosen ∧
      e.catalog.Leads book e'.catalog book' ∧ book'.Covers (s.standing r.isOk standing) := by
  by_cases hd : ∀ x, s ≠ .createDatabase x ∧ s ≠ .dropDatabase x
  · obtain ⟨r, e', book', hrun, he', hf⟩ := perform_follows h he hs hd id
    refine ⟨r, e', book', hrun, he', hf.leads, ?_⟩
    have hsame : s.standing r.isOk standing = standing := by
      cases s with
      | createDatabase x => exact absurd rfl (hd x).1
      | dropDatabase x => exact absurd rfl (hd x).2
      | _ => rfl
    rw [hsame]
    exact hf.covers hst
  · cases s with
    | createDatabase x =>
      obtain ⟨r, c, hrun, ⟨⟨f, rfl⟩, hf⟩ | ⟨⟨d, rfl⟩, hnone, hw, hsuffix, hr⟩⟩ :=
        h.createDatabase hs
      · exact ⟨_, _, book, perform_createDatabase_run id hrun, he, hf.leads, hf.covers hst⟩
      · refine ⟨_, _, _, perform_createDatabase_run id hrun, he, ⟨hw, hsuffix, ?_⟩,
          hst.update_some x _⟩
        intro y hy _
        rw [withCatalog, hr] at hy
        rw [Function.update_of_ne (OrderedMap.ne_of_get?_put_eq_none hy)]
    | dropDatabase x =>
      obtain ⟨r, c, hrun, ⟨⟨f, rfl⟩, hf⟩ | ⟨rfl, hw, hsuffix, hr⟩⟩ := h.dropDatabase hs
      · exact ⟨_, _, book, perform_dropDatabase_run id hrun, he, hf.leads, hf.covers hst⟩
      · refine ⟨_, _, _, perform_dropDatabase_run id hrun,
          Chosen.forgetting (e := e.withCatalog c) he x, ⟨hw, hsuffix, ?_⟩, hst.update_none x⟩
        intro y _ hy
        have hyx : y ≠ x := by
          rintro rfl
          rw [Function.update_self] at hy
          cases hy
        rw [Function.update_of_ne hyx]
    | _ => exact absurd (fun x => ⟨nofun, nofun⟩) hd

end Engine

end Tabular
