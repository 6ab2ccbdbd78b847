import Tabular.Proofs.Engine.Footprint
import Tabular.Proofs.Statement.Grammar

/-!
# Reserved words

Keywords name nothing: of what is on a disk that began empty, no database and no table has a keyword
for its name, so that every one of them can be named in a command.
-/

namespace Tabular

namespace Statement

/-- What a command names is no keyword. -/
theorem isKeyword_of_name? {l : Lexeme} {n : Text} (hl : l.IsScanned) (h : l.name? = some n) :
    Name.isKeyword (Text.lower n) = false := by
  obtain ⟨-, hplain, hk⟩ := (Reader.name?_eq_some_iff hl).1 h
  rw [Name.isKeyword_lower hplain, hk]

variable {command x t : Text} {columns : List Text}

theorem isKeyword_of_createDatabase (h : ofCommand command = .ok (.createDatabase x)) :
    Name.isKeyword x = false := by
  obtain ⟨ls, hscan, hform⟩ := exists_form h
  cases hform with
  | createDatabase database => exact isKeyword_of_name? (hscan _ (by simp)) database

theorem isKeyword_of_createTable (h : ofCommand command = .ok (.createTable t columns)) :
    Name.isKeyword t = false := by
  obtain ⟨ls, hscan, hform⟩ := exists_form h
  cases hform with
  | createTable table made => exact isKeyword_of_name? (hscan _ (by simp)) table

end Statement

namespace Engine

variable {e e' : Engine} {x t : Text} {s : Statement} {book : Book}

/-- No database and no table on the disk has a keyword for its name. -/
structure Unreserved (e : Engine) : Prop where
  databases : ∀ x, e.disk.entries.get? [x] ≠ none → Name.isKeyword x = false
  tables : ∀ x t, e.disk.entries.get? [x, t ++ e.catalog.archive.suffix] ≠ none →
    Name.isKeyword t = false

/-- Nothing new is on the disk. -/
theorem Unreserved.of_files (h : e.Unreserved)
    (hs : e'.catalog.archive.suffix = e.catalog.archive.suffix)
    (hp : ∀ p, e'.disk.entries.get? p ≠ none → e.disk.entries.get? p ≠ none) : e'.Unreserved where
  databases := fun x hx => h.databases x (hp _ hx)
  tables := fun x t ht => h.tables x t (hp _ (by rwa [hs] at ht))

/-- Only the file of one table may be new. -/
theorem Unreserved.of_changesTable (h : e.Unreserved)
    (hs : e'.catalog.archive.suffix = e.catalog.archive.suffix)
    (hc : ChangesTable e.catalog.archive.suffix x t e e') (ht : Name.isKeyword t = false) :
    e'.Unreserved where
  databases := by
    intro y hy
    rw [hc.files _ (by simp)] at hy
    exact h.databases y hy
  tables := by
    intro y k hk
    rw [hs] at hk
    by_cases hp : [y, k ++ e.catalog.archive.suffix] = [x, t ++ e.catalog.archive.suffix]
    · obtain ⟨-, hp⟩ := List.cons.inj hp
      rw [List.append_cancel_right (List.cons.inj hp).1]
      exact ht
    · rw [hc.files _ hp] at hk
      exact h.tables y k hk

/-- The table of a resident database has its file. -/
theorem Unreserved.isKeyword_table (h : e.Unreserved) (hw : e.catalog.Written book) {u : Table}
    (hu : e.table? x t = some u) : Name.isKeyword t = false := by
  obtain ⟨d, hd, hu⟩ := Option.bind_eq_some_iff.1 hu
  have hfile := hw.holds.get?_fileName hw.plain (hw.resident x d hd) t
  rw [hu] at hfile
  refine h.tables x t fun hnone => ?_
  cases hfile.symm.trans hnone

/-- A statement that succeeds makes no name of a keyword. -/
theorem Unreserved.effect (h : e.Unreserved) (hw : e.catalog.Written book) {id command : Text}
    (hread : Statement.ofCommand command = .ok s)
    (hs : e'.catalog.archive.suffix = e.catalog.archive.suffix)
    (he : s.Effect e.catalog.archive.suffix id e e') : e'.Unreserved := by
  cases s with
  | select | join => exact h.of_files hs fun p hp => by rwa [he.files] at hp
  | use => exact h.of_files hs fun p hp => by rwa [he.1] at hp
  | insert | update | delete | alterTable =>
    obtain ⟨x, old, new, -, hc, hold, -⟩ := he
    exact h.of_changesTable hs hc (h.isKeyword_table hw hold)
  | createTable =>
    obtain ⟨x, new, -, hc, -⟩ := he
    exact h.of_changesTable hs hc (Statement.isKeyword_of_createTable hread)
  | dropTable =>
    obtain ⟨x, old, -, hc, hold, -⟩ := he
    exact h.of_changesTable hs hc (h.isKeyword_table hw hold)
  | createDatabase x =>
    obtain ⟨hc, -, -, -, hnew, -⟩ := he
    refine ⟨fun y hy => ?_, fun y k hk => ?_⟩
    · by_cases hxy : y = x
      · exact hxy ▸ Statement.isKeyword_of_createDatabase hread
      · rw [hc.files _ (by simpa using Ne.symm hxy)] at hy
        exact h.databases y hy
    · by_cases hxy : y = x
      · rw [hxy, hnew] at hk
        exact absurd rfl hk
      · rw [hc.files _ (by simpa using Ne.symm hxy), hs] at hk
        exact h.tables y k hk
  | dropDatabase x =>
    obtain ⟨hc, -, hgone, -⟩ := he
    refine h.of_files hs fun p hp => ?_
    by_cases hpre : [x] <+: p
    · obtain ⟨rest, rfl⟩ := hpre
      exact absurd (hgone rest) hp
    · rwa [hc.files p hpre] at hp

theorem Steady.unreserved_after (hs : e.Steady) (hw : e.catalog.Written book) (h : e.Unreserved)
    (v : Event) : (e.after v).Unreserved := by
  cases v with
  | openSession => exact ⟨h.databases, h.tables⟩
  | closeSession id =>
    have hc := closeSession_catalog e id
    exact h.of_files (congrArg (·.archive.suffix) hc) fun p hp => by
      rwa [Engine.after, disk, hc] at hp
  | restart =>
    have hdisk : e.restart.disk = e.disk := restart_disk hs.sane.settled.proper.root
    exact h.of_files rfl fun p hp => by rwa [Engine.after, hdisk] at hp
  | command text key =>
    obtain ⟨disk, r, turns, -⟩ := hs.execute_catalog text key
    have hex : e.execute text key = ((e.execute text key).1, (e.execute text key).2) := rfl
    obtain ⟨hfailed, hdone⟩ := hs.execute_effect hw hex
    cases hok : (e.execute text key).1.success with
    | false =>
      exact h.of_files turns.suffix fun p hp => by rwa [Engine.after, (hfailed hok).files] at hp
    | true =>
      obtain ⟨s, hread, heffect⟩ := hdone hok
      exact h.effect hw hread turns.suffix heffect

/-- After every run from an empty root, no database and no table has a keyword for its name. -/
theorem afterAll_unreserved {o : Options} (ho : o.Plain) (root : Text) (vs : List Event) :
    ((start o (Disk.empty root)).afterAll vs).Unreserved := by
  have hrun : ∀ (c : Chronicle) book, c.Kept book → c.engine.Steady → c.engine.Unreserved →
      (c.engine.afterAll vs).Unreserved := by
    induction vs with
    | nil => exact fun c book _ _ h => h
    | cons v vs ih =>
      intro c book hkept hs h
      obtain ⟨book', hkept'⟩ := hkept.next v
      exact ih (c.next v) book' hkept' (hs.after v) (hs.unreserved_after hkept.written h v)
  refine hrun _ _ (Chronicle.begin_kept root ho) (start_steady_of_proper ho (Disk.empty_proper root))
    ⟨fun x hx => ?_, fun x t hx => ?_⟩
  · exact absurd rfl hx
  · exact absurd rfl hx

end Engine

end Tabular
