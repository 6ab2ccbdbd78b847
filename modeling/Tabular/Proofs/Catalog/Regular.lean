import Tabular.Proofs.Catalog.Sane
import Tabular.Proofs.Catalog.Written

/-!
# Regular places

An archive writes in three kinds of places: the directory of a database, the file of one of its
tables, and a temporary file for a table. Where it began empty and its statements were read from
commands, nothing else is ever written, and nothing else is there to be removed: the databases and
tables in the names of these places are words in small letters, so that no place is outside the
root, whatever the disk refuses.
-/

namespace Tabular

namespace Archive

/-- The places of an archive. What a temporary file's name holds between its dots is any text that
stays within one name. -/
inductive Regular (suffix : Text) : Path → Prop
  | directory {x : Text} (hx : Name.isSmallWord x) : Regular suffix [x]
  | file {x t : Text} (hx : Name.isSmallWord x) (ht : Name.isSmallWord t) :
    Regular suffix [x, t ++ suffix]
  | temporary {x t stamp : Text} (hx : Name.isSmallWord x) (ht : Name.isSmallWord t)
    (hs : '/' ∉ stamp) : Regular suffix [x, ['.'] ++ t ++ ['.'] ++ stamp ++ ['.', 't', 'm', 'p']]

variable {a : Archive} {x t : Text}

theorem regular_fileName (hx : Name.IsWord x) (ht : Name.IsWord t) :
    Regular a.suffix [x, a.fileName t] :=
  .file (Name.isSmallWord_iff.2 hx) (Name.isSmallWord_iff.2 ht)

theorem Plain.regular_temporaryName (ha : a.Plain) (hx : Name.IsWord x) (ht : Name.IsWord t) :
    Regular a.suffix [x, a.temporaryName t] :=
  .temporary (Name.isSmallWord_iff.2 hx) (Name.isSmallWord_iff.2 ht) ha.stamp_chars.1

/-- A file at a regular place is not the file of another table that a command can name. -/
theorem Regular.name_eq {k u : Text} (h : Regular a.suffix [x, a.fileName u])
    (hk : Name.IsWord k) (hu : Text.lower u = k) : u = k := by
  generalize hf : a.fileName u = f at h
  cases h with
  | file _ ht =>
    obtain rfl := List.append_cancel_right hf
    rw [← hu, (Name.isSmallWord_iff.1 ht).small]
  | temporary =>
    refine absurd (congrArg List.head? hf) ?_
    exact a.head?_fileName_ne hk (hu.trans hk.small.symm)

end Archive

namespace Disk

variable {d : Disk} {p q : Path} {regular : Path → Prop}

/-- Something is put at a regular place. -/
theorem regular_of_put (hq : regular q) (e : Entry)
    (h : (d.put q e).entries.get? p ≠ d.entries.get? p) : regular p := by
  rw [put_entries, OrderedMap.get?_put] at h
  split at h
  · next hqp => exact hqp ▸ hq
  · exact absurd rfl h

/-- Something is taken from a place where it was. -/
theorem get?_of_taken {taken : Prop} [Decidable taken] {e : Option Entry}
    (h : (if taken then none else e) ≠ e) : taken ∧ e ≠ none := by
  split at h
  · next ht => exact ⟨ht, h.symm⟩
  · exact absurd rfl h

end Disk

namespace Catalog

/-- A catalog whose disk has entries in regular places only, and whose resident tables are named by
the words that commands find them by. -/
structure Tidy (c : Catalog) : Prop where
  places : ∀ p e, c.archive.disk.entries.get? p = some e →
    p = [] ∨ Archive.Regular c.archive.suffix p
  names : ∀ x d, c.resident.get? x = some d → ∀ k t, d.tables.get? k = some t →
    Name.IsWord k → t.name = k

variable {c c' : Catalog} {x t : Text} {d : Database} {disk : Disk} {s : Statement} {p : Path}
  {r : OrderedMap Text Database} {selected : Option Text}

theorem Tidy.regular (hc : c.Tidy) (hp : p ≠ []) (h : c.archive.disk.entries.get? p ≠ none) :
    Archive.Regular c.archive.suffix p := by
  obtain ⟨e, he⟩ := Option.ne_none_iff_exists'.1 h
  exact (hc.places p e he).resolve_left hp

/-- The table that a change makes is named as the statement names it. -/
theorem Tidy.name_edit (hc : c.Tidy) (hsane : c.Sane) (ht : Name.IsWord t)
    (hr : c.resident.get? x = some d) {old new : Table} {result : Result} {edit : Edit}
    (hold : d.tables.get? (Text.lower t) = some old) (hw : s.edit old = .ok (result, edit))
    (hn : edit.table? = some new) : new.name = t := by
  rw [(hsane.holdable_edit hr hold hw hn).2]
  rw [ht.small] at hold
  exact hc.names x d hr t old hold ht

/-! ## Places that change -/

/-- What a statement that succeeds changes on the disk is at a regular place. -/
theorem Tidy.regular_of_succeeds (hc : c.Tidy) (hsane : c.Sane) (hs : s.Named)
    (hsel : ∀ x, selected = some x → Name.IsWord x) {result : Result}
    (h : c.Succeeds selected s result disk r)
    (hp : disk.entries.get? p ≠ c.archive.disk.entries.get? p) :
    Archive.Regular c.archive.suffix p := by
  cases h with
  | use => exact absurd rfl hp
  | createDatabase => exact Disk.regular_of_put (.directory (Name.isSmallWord_iff.2 hs)) _ hp
  | @dropDatabase x =>
    rw [Disk.get?_cut] at hp
    obtain ⟨hpre, hne⟩ := Disk.get?_of_taken hp
    exact hc.regular (by rintro rfl; simp at hpre) hne
  | @createTable x t columns d new chosen _ _ created _ =>
    have hname : new.name = t := by rw [(Table.create_eq_ok created).2]
    exact Disk.regular_of_put (Archive.regular_fileName (hsel x chosen) (hname ▸ hs)) _ hp
  | dropTable =>
    have hp' := hp
    rw [Archive.withoutFile, Disk.erase_entries, OrderedMap.get?_erase] at hp'
    obtain ⟨rfl, hne⟩ := Disk.get?_of_taken hp'
    exact hc.regular (by simp) hne
  | @edit s x t d old result edit disk about chosen held there worked written =>
    have ht := Statement.named_table hs about
    have hname : ∀ new, edit.table? = some new → new.name = t := fun new hn =>
      hc.name_edit hsane ht held there worked hn
    have hfile : ∀ new, edit.table? = some new →
        Archive.Regular c.archive.suffix [x, c.archive.fileName new.name] := fun new hn =>
      Archive.regular_fileName (hsel x chosen) (hname new hn ▸ ht)
    cases written with
    | none => exact absurd rfl hp
    | whole => exact Disk.regular_of_put (hfile _ rfl) _ hp
    | row => exact Disk.regular_of_put (hfile _ rfl) _ hp
    | line => exact Disk.regular_of_put (hfile _ rfl) _ hp
  | join => exact absurd rfl hp

/-- So is what a statement that fails changes there. -/
theorem Tidy.regular_of_fails (hc : c.Tidy) (hsane : c.Sane) (hs : s.Named)
    (hsel : ∀ x, selected = some x → Name.IsWord x) {f : Failure}
    (h : c.Fails selected s f disk r)
    (hp : disk.entries.get? p ≠ c.archive.disk.entries.get? p) :
    Archive.Regular c.archive.suffix p := by
  have hplain := hsane.settled.plain
  cases h with
  | unchanged => exact absurd rfl hp
  | unworked => exact absurd rfl hp
  | @emptied x q e kept =>
    rw [Disk.get?_emptied] at hp
    obtain ⟨⟨hpre, -⟩, hne⟩ := Disk.get?_of_taken hp
    exact hc.regular (by rintro rfl; simp at hpre) hne
  | @draft x t columns f content chosen =>
    exact Disk.regular_of_put (hplain.regular_temporaryName (hsel x chosen) hs) _ hp
  | @edit s x t d old new result edit f disk about chosen held there worked made left =>
    have ht := Statement.named_table hs about
    have hname : new.name = t := hc.name_edit hsane ht held there worked made
    cases left with
    | unwritten => exact absurd rfl hp
    | draft _ table =>
      cases made.symm.trans table
      exact Disk.regular_of_put
        (hplain.regular_temporaryName (hsel x chosen) (hname ▸ ht)) _ hp
    | line =>
      cases made
      exact Disk.regular_of_put (Archive.regular_fileName (hsel x chosen) (hname ▸ ht)) _ hp
    | missing => exact absurd rfl hp

/-! ## Catalogs stay tidy -/

/-- A catalog is tidy if all that has changed on the disk is at regular places. -/
theorem Tidy.becomes (hc : c.Tidy) (hb : c.Becomes disk r c')
    (hp : ∀ p, disk.entries.get? p ≠ c.archive.disk.entries.get? p →
      Archive.Regular c.archive.suffix p)
    (hr : ∀ y d, r.get? y = some d → ∀ k t, d.tables.get? k = some t → Name.IsWord k →
      t.name = k) : c'.Tidy where
  places := by
    intro p e he
    rw [hb.disk] at he
    rw [hb.suffix]
    by_cases hsame : disk.entries.get? p = c.archive.disk.entries.get? p
    · exact hc.places p e (hsame ▸ he)
    · exact .inr (hp p hsame)
  names := by
    rw [hb.resident]
    exact hr

/-- The tables of a database that is loaded are named by the words that commands find them by. -/
theorem Tidy.name_of_database (hc : c.Tidy) (hs : c.archive.suffix ≠ [])
    (hd : c.archive.database x = .ok d) {k : Text} {u : Table} (hu : d.tables.get? k = some u)
    (hk : Name.IsWord k) : u.name = k := by
  obtain ⟨-, -, -, hget⟩ := Archive.database_eq_ok hs hd
  obtain ⟨hlower, hfetch⟩ := (hget k u).1 hu
  obtain ⟨-, -, content, hfile, -⟩ := Archive.fetch_eq_ok_iff.1 hfetch
  have hreg : Archive.Regular c.archive.suffix [x, c.archive.fileName u.name] :=
    hc.regular (by simp) (by simp [hfile])
  exact hreg.name_eq hk hlower

/-- The tables of a database one of which is replaced. -/
theorem Tidy.names_replace (hc : c.Tidy) (hr : c.resident.get? x = some d) {new : Table}
    (hn : Name.IsWord new.name) {y : Text} {e : Database}
    (hy : (c.resident.put x (d.replace new)).get? y = some e) {k : Text} {u : Table}
    (hu : e.tables.get? k = some u) (hk : Name.IsWord k) : u.name = k := by
  rw [OrderedMap.get?_put] at hy
  split at hy
  · cases hy
    rw [Archive.get?_replace hn] at hu
    split at hu
    · next hkey => cases hu; exact hkey
    · exact hc.names x d hr k u hu hk
  · exact hc.names y e hy k u hu hk

theorem Tidy.succeeds (hc : c.Tidy) (hsane : c.Sane) (hs : s.Named)
    (hsel : ∀ x, selected = some x → Name.IsWord x) {result : Result}
    (h : c.Succeeds selected s result disk r) (hb : c.Becomes disk r c') : c'.Tidy := by
  refine hc.becomes hb (fun p => hc.regular_of_succeeds hsane hs hsel h) ?_
  intro y e hy k u hu hk
  cases h with
  | use =>
    obtain hy | ⟨rfl, -, hdb⟩ := of_get?_heldAfter hy
    · exact hc.names y e hy k u hu hk
    · exact hc.name_of_database hsane.settled.plain.suffix_ne hdb hu hk
  | createDatabase =>
    rw [OrderedMap.get?_put] at hy
    split at hy
    · cases hy
      cases hu
    · exact hc.names y e hy k u hu hk
  | dropDatabase =>
    rw [OrderedMap.get?_erase] at hy
    split at hy
    · cases hy
    · exact hc.names y e hy k u hu hk
  | @createTable x t columns d new _ held _ created _ =>
    have hname : new.name = t := by rw [(Table.create_eq_ok created).2]
    exact hc.names_replace held (hname ▸ hs) hy hu hk
  | @dropTable x t d old _ held _ =>
    rw [OrderedMap.get?_put] at hy
    split at hy
    · cases hy
      rw [Archive.get?_drop hs] at hu
      split at hu
      · cases hu
      · exact hc.names x d held k u hu hk
    · exact hc.names y e hy k u hu hk
  | @edit s x t d old result edit disk about _ held there worked _ =>
    rw [Edit.made] at hy
    split at hy
    · exact hc.names y e hy k u hu hk
    · next new hn =>
      have ht := Statement.named_table hs about
      exact hc.names_replace held (hc.name_edit hsane ht held there worked hn ▸ ht) hy hu hk
  | join => exact hc.names y e hy k u hu hk

theorem Tidy.fails (hc : c.Tidy) (hsane : c.Sane) (hs : s.Named)
    (hsel : ∀ x, selected = some x → Name.IsWord x) {f : Failure}
    (h : c.Fails selected s f disk r) (hb : c.Becomes disk r c') : c'.Tidy := by
  refine hc.becomes hb (fun p => hc.regular_of_fails hsane hs hsel h) ?_
  intro y e hy k u hu hk
  cases h with
  | edit about _ held there worked made _ =>
    have ht := Statement.named_table hs about
    exact hc.names_replace held (hc.name_edit hsane ht held there worked made ▸ ht) hy hu hk
  | _ => exact hc.names y e hy k u hu hk

end Catalog

end Tabular
