import Tabular.Proofs.Catalog.Written
import Tabular.Proofs.Table.Changes

/-!
# Writing through

Loading a database that is held on the disk gives back its tables, and every piece of work of a
catalog leads from one book to another that follows it.
-/

namespace Tabular

namespace Archive

variable {a : Archive} {book : Book} {x : Text} {d : Database}

theorem Holds.mem_tableNames_iff (h : a.Holds book) (ha : a.Plain) (hx : book x = some d)
    {t : Text} : t ∈ a.tableNames x ↔ ∃ u, d.tables.get? t = some u := by
  rw [Archive.mem_tableNames_iff ha.suffix_ne, h.get?_fileName ha hx]
  cases d.tables.get? t <;> simp

/-- The file of a table is read as the table with its next id computed anew. -/
theorem Holds.fetch_eq (h : a.Holds book) (ha : a.Plain) (hx : book x = some d) {t : Text}
    {u : Table} (hu : d.tables.get? t = some u) : a.fetch x t = .ok u.reloaded := by
  have hk := h.databases x d hx
  have hg : a.disk.entries.get? [x, a.fileName t] = some (.file (Utf8.encode u.encode)) := by
    rw [h.get?_fileName ha hx, hu]
    rfl
  rw [Archive.fetch_eq hg, tableOf_eq_of_readsAs (readsAs_encode (hk.table_sound t u hu)),
    ← (hk.table_name t u hu).1]
  rfl

/-- The directory of a database holds it: loading gives back all its tables. -/
theorem Holds.database_eq (h : a.Holds book) (ha : a.Plain) (hx : book x = some d) :
    ∃ d', a.database x = .ok d' ∧ d'.name = x ∧
      ∀ k, d'.tables.get? k = (d.tables.get? k).map Table.reloaded := by
  have hk := h.databases x d hx
  have hmem {t : Text} (ht : t ∈ a.tableNames x) :
      ∃ u, d.tables.get? t = some u ∧ Text.lower t = t ∧ a.fetch x t = .ok u.reloaded := by
    obtain ⟨u, hu⟩ := (h.mem_tableNames_iff ha hx).1 ht
    exact ⟨u, hu, (hk.table_name t u hu).2.small, h.fetch_eq ha hx hu⟩
  have hsmall : (a.tableNames x).map Text.lower = a.tableNames x := by
    conv_rhs => rw [← List.map_id (a.tableNames x)]
    refine List.map_congr_left fun t ht => ?_
    obtain ⟨-, -, hl, -⟩ := hmem ht
    exact hl
  have hnd : ((a.tableNames x).map Text.lower).Nodup := by
    rw [hsmall]
    exact tableNames_nodup ha.suffix_ne x
  obtain ⟨d', hd'⟩ := exists_database hnd fun t ht => by
    obtain ⟨u, -, -, hu⟩ := hmem ht
    exact ⟨_, hu⟩
  obtain ⟨hname, -, -, hget⟩ := database_eq_ok ha.suffix_ne hd'
  refine ⟨d', hd', hname, fun k => Option.ext fun u => ?_⟩
  rw [hget]
  constructor
  · rintro ⟨rfl, hu⟩
    obtain ⟨-, -, content, hg, -⟩ := fetch_eq_ok_iff.1 hu
    obtain ⟨v, hv, hl, hf⟩ := hmem ((Archive.mem_tableNames_iff ha.suffix_ne).2 ⟨content, hg⟩)
    cases hu.symm.trans hf
    rw [hl, hv]
    rfl
  · intro hku
    obtain ⟨v, hv, rfl⟩ := Option.map_eq_some_iff.1 hku
    obtain ⟨hn, hw⟩ := hk.table_name k v hv
    have hn' : v.reloaded.name = k := hn
    rw [hn']
    exact ⟨hw.small, h.fetch_eq ha hx hv⟩

/-- A table in the book can be written in whole. -/
theorem Holds.writable (h : a.Holds book) (ha : a.Plain) (hx : book x = some d) {t : Text}
    (hf : Disk.fits (a.fileName t) ∧ Disk.fits (a.temporaryName t)) : a.Writable x t := by
  refine ⟨⟨(h.databases x d hx).fits, ?_⟩, hf.2, h.get?_temporaryName ha x t, hf.1, ?_⟩
  · rw [h.isKept_iff, hx]
    rfl
  · rw [h.get?_fileName ha hx]
    cases d.tables.get? t <;> simp

end Archive

namespace Catalog

variable {c c' : Catalog} {book : Book} {x : Text} {d : Database}

theorem Written.settled (h : c.Written book) : c.Settled where
  plain := h.plain
  proper := h.holds.proper h.plain
  grounded := by
    intro y hy
    obtain ⟨e, he⟩ := Option.isSome_iff_exists.1 hy
    rw [h.holds.isKept_iff, h.resident y e he]
    rfl

theorem Becomes.written {disk : Disk} {r : OrderedMap Text Database} (hb : c.Becomes disk r c')
    (hp : c.archive.Plain) (hh : ({ c.archive with disk := disk } : Archive).Holds book)
    (hr : ∀ y e, r.get? y = some e → book y = some e) : c'.Written book := by
  exact ⟨hp.congr hb.suffix hb.stamp, hh.congr hb.disk hb.suffix hb.stamp,
    by rw [hb.resident]; exact hr⟩

theorem Written.follows_stays (h : c.Written book) (hb : c.Stays c') :
    c.Follows book c' book := by
  refine ⟨hb.written h.plain h.holds h.resident, hb.suffix, fun _ => rfl, fun _ _ => rfl, ?_⟩
  intro y hy
  rw [hb.resident]
  exact hy

/-- The resident databases agree with the book when one of them comes to both. -/
theorem Written.resident_put (h : c.Written book) {d' : Database} {y : Text} {e : Database}
    (hy : (c.resident.put x d').get? y = some e) :
    Function.update book x (some d') y = some e := by
  by_cases hyx : y = x
  · subst hyx
    rw [OrderedMap.get?_put_same] at hy
    rw [Function.update_self, hy]
  · rw [OrderedMap.get?_put_other _ _ (Ne.symm hyx)] at hy
    rw [Function.update_of_ne hyx]
    exact h.resident y e hy

/-- Something else becomes of one database that is in the book. -/
theorem Written.follows_update (h : c.Written book) (hx : book x = some d) {d' : Database}
    {disk : Disk} {r : OrderedMap Text Database} (hb : c.Becomes disk r c')
    (hh : ({ c.archive with disk := disk } : Archive).Holds
      (Function.update book x (some d')))
    (hr : r = c.resident.put x d') :
    c.Follows book c' (Function.update book x (some d')) := by
  subst hr
  refine ⟨hb.written h.plain hh fun _ _ => h.resident_put, hb.suffix, ?_, ?_, ?_⟩
  · intro y
    by_cases hyx : y = x
    · subst hyx
      rw [Function.update_self, hx]
      rfl
    · rw [Function.update_of_ne hyx]
  · intro y hy
    rw [hb.resident] at hy
    rw [Function.update_of_ne (OrderedMap.ne_of_get?_put_eq_none hy)]
  · intro y hy
    rw [hb.resident, OrderedMap.has, OrderedMap.get?_put]
    split
    · rfl
    · exact hy

/-- A database that is referred to is found as the book says, or with its next ids anew. -/
theorem Written.follows_found (h : c.Written book) (x : Text) :
    ∃ book', c.Follows book (c.holdingFound x) book' ∧
      ∀ d, c.found x = .ok d → book' x = some d := by
  have hsame : c.heldAfter x = c.resident → c.Stays (c.holdingFound x) := fun he =>
    ⟨rfl, rfl, rfl, rfl, rfl, he⟩
  cases hr : c.resident.get? x with
  | some d =>
    refine ⟨book, h.follows_stays (hsame (heldAfter_of_get? hr)), ?_⟩
    intro e he
    cases (found_of_get? hr).symm.trans he
    exact h.resident x d hr
  | none =>
    cases hf : c.found x with
    | error f =>
      exact ⟨book, h.follows_stays (hsame (heldAfter_of_error hf)), fun d hd => by cases hd⟩
    | ok d' =>
      have hk := kept_of_found h.settled hf
      obtain ⟨d, hx⟩ := Option.isSome_iff_exists.1 (h.holds.isKept_iff.1 hk)
      obtain ⟨d'', hdb, hname, hget⟩ := h.holds.database_eq h.plain hx
      have hfound := found_of_kept hr (h.settled.isName hk).2 hk
      cases (hfound.symm.trans hf).symm.trans hdb
      have hh := heldAfter_of_ok hr hf
      refine ⟨_, h.follows_update hx ⟨rfl, rfl, rfl, rfl, rfl, rfl⟩
        (h.holds.reload hx hname hget) hh, ?_⟩
      intro e he
      cases he
      exact Function.update_self ..

/-- A database that is in the book is found, with the tables that the book says. -/
theorem Written.found_eq_ok (h : c.Written book) (hx : book x = some d) :
    ∃ d', c.found x = .ok d' ∧ d'.Agrees d := by
  cases hr : c.resident.get? x with
  | some e =>
    have he : e = d := Option.some.inj ((h.resident x e hr).symm.trans hx)
    exact ⟨d, he ▸ found_of_get? hr, rfl, fun _ => rfl⟩
  | none =>
    obtain ⟨d', hd', hname, hget⟩ := h.holds.database_eq h.plain hx
    have hk : c.archive.isKept x := by
      rw [h.holds.isKept_iff, hx]
      rfl
    have hkeeps := h.holds.databases x d hx
    refine ⟨d', (found_of_kept hr hkeeps.fits hk).trans hd', hname.trans hkeeps.name.symm, ?_⟩
    intro k
    rw [hget, Option.map_map]
    rfl

/-- Carrying out a change of a resident table succeeds, and the book follows. -/
theorem Written.follows_carry (h : c.Written book) (hr : c.resident.get? x = some d) {k : Text}
    {old : Table} (hk : d.tables.get? k = some old) {edit : Edit} (he : edit.Fits old) :
    ∃ c' book', (edit.carry x).run c = (.ok (), c') ∧ c.Follows book c' book' := by
  have hx := h.resident x d hr
  have hkeeps := h.holds.databases x d hx
  obtain ⟨hname, hword⟩ := hkeeps.table_name k old hk
  have hkept : c.archive.isKept x := by
    rw [h.holds.isKept_iff, hx]
    rfl
  have hwhole : ∀ t : Table, t.Sound → t.name = old.name →
      ∃ c' book', ((Edit.whole t).carry x).run c = (.ok (), c') ∧ c.Follows book c' book' := by
    intro t hs ht
    have htk : t.name = k := ht.trans hname
    have hf := hkeeps.table_fits k old hk
    rw [← htk] at hf hword
    obtain ⟨c', hrun, hb⟩ := carry_whole_run h.settled hkept hr
      (h.plain.isName_fileName hword) (h.holds.writable h.plain hx hf)
    exact ⟨c', _, hrun, h.follows_update hx hb (h.holds.putFile h.plain hx hword hs hf) rfl⟩
  cases edit with
  | none => exact ⟨c, book, rfl, .refl h⟩
  | whole t => exact hwhole t he.1 he.2
  | row t r =>
    obtain ⟨hs, -, -, n, ht⟩ := he
    have htname : t.name = old.name := by rw [ht]
    cases hm : c.mode with
    | whole =>
      obtain ⟨c', book', hrun, hf⟩ := hwhole t hs htname
      exact ⟨c', book', (carry_row_whole hm hr r).trans hrun, hf⟩
    | append =>
      have htk : t.name = k := htname.trans hname
      have hf := hkeeps.table_fits k old hk
      have hg : c.archive.disk.entries.get? [x, c.archive.fileName t.name] =
          some (.file (Utf8.encode old.encode)) := by
        rw [h.holds.get?_fileName h.plain hx, htk, hk]
        rfl
      rw [← htk] at hf hword
      obtain ⟨c', hrun, hb⟩ := carry_row_append h.settled hkept hm hr
        (h.plain.isName_fileName hword) hf.1 hg r
      have hcontent : Utf8.encode old.encode ++ Utf8.encode (Table.encodeRow r) =
          Utf8.encode t.encode := by
        rw [← Utf8.encode_append, ht, Table.encode_append_row]
      rw [hcontent] at hb
      exact ⟨c', _, hrun, h.follows_update hx hb (h.holds.putFile h.plain hx hword hs hf) rfl⟩

/-! ## Pieces of work -/

theorem Written.follows_becomes_held (h : c.Written book) {x : Text}
    (hb : c.Becomes c.archive.disk (c.heldAfter x) c') :
    ∃ book', c.Follows book c' book' ∧
      ∀ d, c.found x = .ok d → book' x = some d ∧ c'.resident.get? x = some d := by
  obtain ⟨book', hf, hd⟩ := h.follows_found x
  refine ⟨book', hf.trans (hf.written.follows_stays hb.of_holdingFound), ?_⟩
  intro d hfound
  exact ⟨hd d hfound, by rw [hb.resident]; exact get?_heldAfter hfound⟩

theorem Written.follows_use (h : c.Written book) (hx : Name.IsWord x) :
    ∃ c' book', (use x).run c = (c.found x, c') ∧ c.Follows book c' book' ∧
      ∀ d, c.found x = .ok d → c'.resident.get? x = some d := by
  obtain ⟨c', hrun, hb⟩ := use_run h.settled hx.isName
  obtain ⟨book', hf, hd⟩ := h.follows_becomes_held hb
  exact ⟨c', book', hrun, hf, fun d hr => (hd d hr).2⟩

theorem Written.follows_table (h : c.Written book) (hx : Name.IsWord x) (t : Text) :
    ∃ r c' book', (table x t).run c = (r, c') ∧ c.Follows book c' book' ∧
      ∀ old, r = .ok old → ∃ d, c'.resident.get? x = some d ∧
        d.tables.get? (Text.lower t) = some old := by
  obtain ⟨c', hrun, hb⟩ := table_run h.settled hx.isName t
  obtain ⟨book', hf, hd⟩ := h.follows_becomes_held hb
  refine ⟨_, c', book', hrun, hf, ?_⟩
  intro old hold
  obtain ⟨d, hfound, hg⟩ := found_table_iff.1 hold
  exact ⟨d, (hd d hfound).2, hg⟩

theorem Written.follows_createTable (h : c.Written book) (hx : Name.IsWord x) {t : Text}
    (ht : Name.IsWord t) (columns : List Text) :
    ∃ r c' book', (createTable x t columns).run c = (r, c') ∧ c.Follows book c' book' := by
  cases hp : c.planned x t columns with
  | error f =>
    obtain ⟨c', hrun, hb⟩ := createTable_error h.settled hx.isName hp
    obtain ⟨book', hf, -⟩ := h.follows_becomes_held hb
    exact ⟨_, c', book', hrun, hf⟩
  | ok p =>
    obtain ⟨d, new⟩ := p
    obtain ⟨hfound, -, hcreate⟩ := planned_eq_ok hp
    have hname : new.name = t := by rw [(Table.create_eq_ok hcreate).2]
    have hword : Name.IsWord new.name := hname ▸ ht
    have hfile := h.plain.isName_fileName hword
    by_cases hw : c.archive.Writable x new.name
    · obtain ⟨c', hrun, hb⟩ := createTable_ok h.settled hx.isName hp hfile hw
      obtain ⟨book', hf, hd⟩ := h.follows_found x
      have hput := hf.written.follows_update (hd d hfound) hb.of_holdingFound
        (hf.written.holds.putFile h.plain (hd d hfound) hword (Table.create_sound hcreate)
          ⟨hw.file_fits, hw.temporary_fits⟩) rfl
      exact ⟨_, c', _, hrun, hf.trans hput⟩
    · obtain ⟨f, c', hrun, -, hb⟩ := createTable_fails h.settled hx.isName hp hfile hw
      obtain ⟨book', hf, -⟩ := h.follows_becomes_held hb
      exact ⟨_, c', book', hrun, hf⟩

theorem Written.follows_dropTable (h : c.Written book) (hx : Name.IsWord x) {t : Text}
    (ht : Name.IsWord t) :
    ∃ r c' book', (dropTable x t).run c = (r, c') ∧ c.Follows book c' book' := by
  cases hp : c.doomed x t with
  | error f =>
    obtain ⟨c', hrun, hb⟩ := dropTable_error h.settled hx.isName hp
    obtain ⟨book', hf, -⟩ := h.follows_becomes_held hb
    exact ⟨_, c', book', hrun, hf⟩
  | ok p =>
    obtain ⟨d, old⟩ := p
    have hfound := (doomed_eq_ok hp).1
    have hfile := h.plain.isName_fileName ht
    by_cases hn : Disk.fits (c.archive.fileName t) ∧
        c.archive.disk.entries.get? [x, c.archive.fileName t] ≠ some .directory
    · obtain ⟨c', hrun, hb⟩ := dropTable_ok h.settled hx.isName hp hfile hn.1 hn.2
      obtain ⟨book', hf, hd⟩ := h.follows_found x
      have hdrop := hf.written.follows_update (hd d hfound) hb.of_holdingFound
        (hf.written.holds.withoutFile h.plain (hd d hfound) ht) rfl
      exact ⟨_, c', _, hrun, hf.trans hdrop⟩
    · obtain ⟨f, c', hrun, -, hb⟩ := dropTable_fails h.settled hx.isName hp hfile hn
      obtain ⟨book', hf, -⟩ := h.follows_becomes_held hb
      exact ⟨_, c', book', hrun, hf⟩

/-- A new database has an empty page in the book. -/
theorem Written.createDatabase (h : c.Written book) (hx : Name.IsWord x) :
    ∃ r c', (createDatabase x).run c = (r, c') ∧
      ((∃ f, r = .error f) ∧ c.Follows book c' book ∨
        (∃ d, r = .ok d) ∧ book x = none ∧
          c'.Written (Function.update book x (some (Database.empty x))) ∧
          c'.archive.suffix = c.archive.suffix ∧
          c'.resident = c.resident.put x (Database.empty x)) := by
  obtain ⟨c', hrun, hb⟩ := createDatabase_run h.settled hx.isName
  refine ⟨_, c', hrun, ?_⟩
  cases hcr : c.created x with
  | error f =>
    rw [hcr] at hb
    exact .inl ⟨⟨f, rfl⟩, h.follows_stays hb⟩
  | ok d =>
    rw [hcr] at hb
    simp only at hb
    obtain ⟨hfit, hnone⟩ := created_eq_ok hcr
    rw [h.holds.directories, Option.map_eq_none_iff] at hnone
    exact .inr ⟨⟨d, rfl⟩, hnone, hb.written h.plain (h.holds.create hnone hx hfit)
      fun _ _ => h.resident_put, hb.suffix, hb.resident⟩

/-- A database that is dropped leaves the book. -/
theorem Written.dropDatabase (h : c.Written book) (hx : Name.IsWord x) :
    ∃ r c', (dropDatabase x).run c = (r, c') ∧
      ((∃ f, r = .error f) ∧ c.Follows book c' book ∨
        r = .ok () ∧ c'.Written (Function.update book x none) ∧
          c'.archive.suffix = c.archive.suffix ∧ c'.resident = c.resident.erase x) := by
  obtain ⟨c', hrun, hb⟩ := dropDatabase_run h.settled hx.isName
  refine ⟨_, c', hrun, ?_⟩
  cases hdr : c.dropped x with
  | error f =>
    rw [hdr] at hb
    exact .inl ⟨⟨f, rfl⟩, h.follows_stays hb⟩
  | ok u =>
    rw [hdr] at hb
    refine .inr ⟨rfl, hb.written h.plain (h.holds.drop x) ?_, hb.suffix, hb.resident⟩
    intro y e hy
    rw [OrderedMap.get?_erase] at hy
    split at hy
    · cases hy
    · next hyx =>
      rw [Function.update_of_ne (Ne.symm hyx)]
      exact h.resident y e hy

end Catalog

end Tabular
