import Tabular.Proofs.Archive.Tables
import Tabular.Proofs.Except
import Tabular.Proofs.Text.Sorted
import Tabular.Database

/-!
# Databases of an archive

The database in a directory has the tables of its files. There is one if every file can be read
and no two names are the same in small letters.
-/

namespace Tabular

namespace Database

theorem addAll_name {d e : Database} {ts : List Table} (h : d.addAll ts = .ok e) :
    e.name = d.name := by
  induction ts generalizing d with
  | nil => cases h; rfl
  | cons t ts ih =>
    obtain ⟨f, hf, h⟩ := Except.bind_eq_ok_iff.1 h
    rw [ih h]
    unfold add at hf
    split at hf
    · cases hf
    · cases hf
      rfl

theorem has_replace_iff {d : Database} {t : Table} {name : Text} :
    (d.replace t).has name ↔ Text.lower t.name = Text.lower name ∨ d.has name := by
  simp only [has, OrderedMap.has, replace, OrderedMap.get?_put]
  split <;> simp_all

/-- Tables under different names are added one after the other. -/
theorem addAll_eq_ok {d : Database} {ts : List Table}
    (hn : (ts.map fun t => Text.lower t.name).Nodup) (hd : ∀ t ∈ ts, d.has t.name = false) :
    ∃ e, d.addAll ts = .ok e ∧ e.name = d.name ∧ ∀ k t, e.tables.get? k = some t ↔
      d.tables.get? k = some t ∨ (t ∈ ts ∧ Text.lower t.name = k) := by
  induction ts generalizing d with
  | nil => exact ⟨d, rfl, rfl, by simp⟩
  | cons t ts ih =>
    rw [List.map_cons, List.nodup_cons] at hn
    have ht := hd t (by simp)
    have hadd : d.add t = .ok (d.replace t) := by
      unfold add
      rw [ht]
      rfl
    have hrest : ∀ u ∈ ts, (d.replace t).has u.name = false := by
      intro u hu
      have hne : Text.lower t.name ≠ Text.lower u.name := fun he =>
        hn.1 (List.mem_map.2 ⟨u, hu, he.symm⟩)
      have hold := hd u (by simp [hu])
      rw [has, OrderedMap.has] at hold ⊢
      rw [replace, OrderedMap.get?_put_other _ _ hne]
      exact hold
    obtain ⟨e, he, hname, hget⟩ := ih hn.2 hrest
    refine ⟨e, by rw [addAll, hadd]; exact he, hname, ?_⟩
    intro k u
    have hnone : d.tables.get? (Text.lower t.name) = none := OrderedMap.has_eq_false_iff.1 ht
    rw [hget, replace, OrderedMap.get?_put]
    by_cases hk : Text.lower t.name = k
    · subst hk
      simp only [if_true, Option.some.injEq, hnone, reduceCtorEq, false_or, List.mem_cons]
      constructor
      · rintro (rfl | ⟨hm, he⟩)
        · exact ⟨.inl rfl, rfl⟩
        · exact ⟨.inr hm, he⟩
      · rintro ⟨rfl | hm, he⟩
        · exact .inl rfl
        · exact .inr ⟨hm, he⟩
    · simp only [hk, if_false, List.mem_cons]
      constructor
      · rintro (h | ⟨hm, hl⟩)
        · exact .inl h
        · exact .inr ⟨.inr hm, hl⟩
      · rintro (h | ⟨rfl | hm, hl⟩)
        · exact .inl h
        · exact absurd hl hk
        · exact .inr ⟨hm, hl⟩

/-- Tables that can be added one after the other have different names. -/
theorem nodup_of_addAll {d e : Database} {ts : List Table} (h : d.addAll ts = .ok e) :
    (ts.map fun t => Text.lower t.name).Nodup ∧ ∀ t ∈ ts, d.has t.name = false := by
  induction ts generalizing d with
  | nil => simp
  | cons t ts ih =>
    obtain ⟨f, hf, h⟩ := Except.bind_eq_ok_iff.1 h
    unfold add at hf
    split at hf
    · cases hf
    · next hh =>
      cases hf
      obtain ⟨hn, hr⟩ := ih h
      have hnew : ∀ u ∈ ts, Text.lower t.name ≠ Text.lower u.name ∧ d.has u.name = false := by
        intro u hu
        have hu' : (d.replace t).has u.name = false := hr u hu
        rw [Bool.eq_false_iff, Ne, has_replace_iff, not_or] at hu'
        exact ⟨hu'.1, by simpa using hu'.2⟩
      refine ⟨List.nodup_cons.2 ⟨?_, hn⟩, ?_⟩
      · intro hm
        obtain ⟨u, hu, he⟩ := List.mem_map.1 hm
        exact (hnew u hu).1 he.symm
      · intro u hu
        rcases List.mem_cons.1 hu with rfl | hu
        · simpa using hh
        · exact (hnew u hu).2

end Database

namespace Archive

/-- The database in the files of a directory. -/
def database (a : Archive) (x : Text) : Except Failure Database := do
  let ts ← (a.tableNames x).mapM (a.fetch x)
  ((Database.empty x).addAll ts).mapError Failure.rejected

variable {a : Archive} {x : Text}

theorem fetch_eq_ok_iff {t : Text} {u : Table} :
    a.fetch x t = .ok u ↔ u.name = t ∧ u.nextId = Table.followingId u.rows ∧
      ∃ content, a.disk.entries.get? [x, a.fileName t] = some (.file content) ∧
        ReadsAs content u.columns u.rows := by
  cases hg : a.disk.entries.get? [x, a.fileName t] with
  | none => simp [fetch, hg]
  | some e =>
    cases e with
    | directory => simp [fetch, hg]
    | file content =>
      rw [fetch_eq hg, tableOf_eq_ok_iff]
      constructor
      · rintro ⟨h, hn, hid⟩
        exact ⟨hn, hid, content, rfl, h⟩
      · rintro ⟨hn, hid, content', he, h⟩
        cases he
        exact ⟨h, hn, hid⟩

theorem sound_of_fetch {t : Text} {u : Table} (h : a.fetch x t = .ok u) : u.Sound := by
  obtain ⟨-, hid, content, -, hread⟩ := fetch_eq_ok_iff.1 h
  exact hread.sound (Nat.le_of_eq hid.symm)

theorem fetchAll_names {ts : List Text} {us : List Table} (h : ts.mapM (a.fetch x) = .ok us) :
    us.map (·.name) = ts := by
  have hf := (Except.mapM_eq_ok_iff.1 h).imp fun t u htu => (fetch_eq_ok_iff.1 htu).1.symm
  have he := List.forall₂_map_right_iff.2 hf
  rw [List.forall₂_eq_eq_eq] at he
  exact he.symm

/-- The tables of the database in a directory are those in its files. -/
theorem database_eq_ok {d : Database} (hs : a.suffix ≠ []) (h : a.database x = .ok d) :
    d.name = x ∧ ((a.tableNames x).map Text.lower).Nodup ∧
      (∀ t ∈ a.tableNames x, ∃ u, a.fetch x t = .ok u) ∧
      ∀ k t, d.tables.get? k = some t ↔ Text.lower t.name = k ∧ a.fetch x t.name = .ok t := by
  obtain ⟨us, hus, h⟩ := Except.bind_eq_ok_iff.1 h
  have h := Except.mapError_eq_ok_iff.1 h
  have hf := Except.mapM_eq_ok_iff.1 hus
  obtain ⟨hn, hd⟩ := Database.nodup_of_addAll h
  obtain ⟨d', hd', -, hget⟩ := Database.addAll_eq_ok hn hd
  cases h.symm.trans hd'
  refine ⟨Database.addAll_name h, ?_, ?_, ?_⟩
  · rwa [← fetchAll_names hus, List.map_map]
  · intro t ht
    obtain ⟨u, -, hu⟩ := exists_of_mem_left hf ht
    exact ⟨u, hu⟩
  · intro k t
    rw [hget]
    constructor
    · rintro (h' | ⟨hm, hl⟩)
      · cases h'
      · obtain ⟨n, -, hu⟩ := exists_of_mem_right hf hm
        rw [(fetch_eq_ok_iff.1 hu).1]
        exact ⟨(fetch_eq_ok_iff.1 hu).1 ▸ hl, hu⟩
    · rintro ⟨hl, hu⟩
      obtain ⟨-, -, content, hg, -⟩ := fetch_eq_ok_iff.1 hu
      obtain ⟨u, hm, hu'⟩ := exists_of_mem_left hf ((mem_tableNames_iff hs).2 ⟨content, hg⟩)
      cases hu.symm.trans hu'
      exact .inr ⟨hm, hl⟩

/-- There is a database if every file can be read and no two names are the same. -/
theorem exists_database (hn : ((a.tableNames x).map Text.lower).Nodup)
    (hf : ∀ t ∈ a.tableNames x, ∃ u, a.fetch x t = .ok u) : ∃ d, a.database x = .ok d := by
  obtain ⟨us, hus⟩ := Except.exists_mapM_eq_ok hf
  have hnd : (us.map fun u => Text.lower u.name).Nodup := by
    rwa [← fetchAll_names hus, List.map_map] at hn
  obtain ⟨d, hd, -⟩ := Database.addAll_eq_ok (d := Database.empty x) hnd fun _ _ => rfl
  exact ⟨d, by rw [database, hus]; simp only [bind, Except.bind, hd, Except.mapError]⟩

/-- Directories whose files are read the same hold the same database. -/
theorem database_congr {a' : Archive} (hn : a.tableNames x = a'.tableNames x)
    (hf : ∀ t ∈ a.tableNames x, a.fetch x t = a'.fetch x t) : a.database x = a'.database x := by
  rw [database, database, Except.mapM_congr hf, hn]

theorem database_eq_of_disk {a' : Archive} (hd : a'.disk = a.disk) (hs : a'.suffix = a.suffix) :
    a'.database x = a.database x := by
  refine database_congr (by rw [tableNames, tableNames, hd, hs]) fun t _ => ?_
  simp only [fetch, fileName, pathText, hd, hs]

end Archive

end Tabular
