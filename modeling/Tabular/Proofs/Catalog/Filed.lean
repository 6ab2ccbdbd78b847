import Tabular.Proofs.Catalog.Sane

/-!
# Files of resident tables

Every table of a resident database has its file, whatever a statement comes to, unless the directory
of a database could not be removed once it was emptied.
-/

namespace Tabular

/-- There is a file for a table of a name. -/
def Archive.HasFile (a : Archive) (x t : Text) : Prop :=
  ∃ content, a.disk.entries.get? [x, a.fileName t] = some (.file content)

namespace Catalog

/-- Every table of a resident database has its file. -/
def Filed (c : Catalog) : Prop :=
  ∀ x d, c.resident.get? x = some d → ∀ k t, d.tables.get? k = some t → c.archive.HasFile x t.name

variable {c c' : Catalog} {x : Text} {d : Database} {disk : Disk} {r : OrderedMap Text Database}
  {s : Statement} {selected : Option Text}

theorem Filed.becomes (hb : c.Becomes disk r c') (hf : ∀ y u, r.get? y = some u →
    ∀ k t, u.tables.get? k = some t → ∃ content,
      disk.entries.get? [y, c.archive.fileName t.name] = some (.file content)) : c'.Filed := by
  intro y u hy k t ht
  rw [hb.resident] at hy
  obtain ⟨content, hg⟩ := hf y u hy k t ht
  exact ⟨content, by rw [hb.disk, Archive.fileName_congr hb.suffix]; exact hg⟩

theorem Filed.stays (h : c.Filed) (hb : c.Stays c') : c'.Filed := Filed.becomes hb h

/-- One more file, or another one in its place, takes no file away. -/
theorem get?_put_file {a : Disk} {p q : Path} {content : Bytes}
    (h : ∃ content, a.entries.get? q = some (.file content)) :
    ∃ content', (a.put p (.file content)).entries.get? q = some (.file content') := by
  rw [Disk.put_entries, OrderedMap.get?_put]
  split
  · exact ⟨content, rfl⟩
  · exact h

/-- A table that is written, in a database that is resident. -/
theorem Filed.putFile (h : c.Filed) (hr : c.resident.get? x = some d) {t : Table} {content : Bytes}
    (hb : c.Becomes (c.archive.putFile x t.name content).disk (c.resident.put x (d.replace t)) c') :
    c'.Filed := by
  refine Filed.becomes hb fun y u hy k v hv => ?_
  rw [OrderedMap.get?_put] at hy
  split at hy
  · next hxy =>
    cases hy
    subst hxy
    rw [Database.replace, OrderedMap.get?_put] at hv
    split at hv
    · cases hv
      exact ⟨content, OrderedMap.get?_put_same ..⟩
    · exact get?_put_file (h x d hr k v hv)
  · exact get?_put_file (h y u hy k v hv)

theorem Filed.succeeds (h : c.Filed) (hc : c.Sane) {result : Result}
    (hs : c.Succeeds selected s result disk r) (hb : c.Becomes disk r c') : c'.Filed := by
  cases hs with
  | @use x d hf =>
    refine Filed.becomes hb fun y u hy k t ht => ?_
    obtain hy | ⟨rfl, -, hdb⟩ := of_get?_heldAfter hy
    · exact h y u hy k t ht
    · obtain ⟨-, -, -, hget⟩ := Archive.database_eq_ok hc.settled.plain.suffix_ne hdb
      obtain ⟨-, -, content, hg, -⟩ := Archive.fetch_eq_ok_iff.1 ((hget k t).1 ht).2
      exact ⟨content, hg⟩
  | createDatabase =>
    refine Filed.becomes hb fun y u hy k t ht => ?_
    rw [OrderedMap.get?_put] at hy
    rw [Disk.put_entries, OrderedMap.get?_put_other _ _ (by simp)]
    split at hy
    · cases hy
      cases ht
    · exact h y u hy k t ht
  | dropDatabase =>
    refine Filed.becomes hb fun y u hy k t ht => ?_
    rw [OrderedMap.get?_erase] at hy
    rw [Disk.get?_cut_cons]
    split at hy
    · cases hy
    · next hxy =>
      rw [if_neg hxy]
      exact h y u hy k t ht
  | createTable _ hr _ _ _ => exact h.putFile hr hb
  | @dropTable x t d old _ hr _ =>
    refine Filed.becomes hb fun y u hy k v hv => ?_
    have hgone : ∀ y u, c.resident.get? y = some u → u.tables.get? k = some v →
        (y = x → k ≠ Text.lower t) → ∃ content, (c.archive.withoutFile x t).disk.entries.get?
          [y, c.archive.fileName v.name] = some (.file content) := by
      intro y u hy hv hne
      have hpath : [x, c.archive.fileName t] ≠ [y, c.archive.fileName v.name] := by
        intro hp
        obtain ⟨hxy, hrest⟩ := List.cons.inj hp
        refine hne hxy.symm ?_
        rw [Archive.fileName_injective (List.cons.inj hrest).1]
        exact (hc.held _ u hy k v hv).key_eq.symm
      obtain ⟨content, hg⟩ := h y u hy k v hv
      exact ⟨content, (OrderedMap.get?_erase_other _ hpath).trans hg⟩
    rw [OrderedMap.get?_put] at hy
    split at hy
    · next hxy =>
      cases hy
      subst hxy
      rw [Database.drop, OrderedMap.get?_erase] at hv
      split at hv
      · cases hv
      · next hk => exact hgone x d hr hv fun _ hk' => hk hk'.symm
    · next hxy => exact hgone y u hy hv fun hyx => absurd hyx.symm hxy
  | @edit s x t d old result edit disk _ _ hr hold hw hwr =>
    cases hwr with
    | none => exact h.stays hb
    | whole => exact h.putFile hr hb
    | row => exact h.putFile hr hb
    | line => exact h.putFile hr hb
  | join => exact h.stays hb

/-- A failure takes no file away either, unless it is one to remove a directory. -/
theorem Filed.fails (h : c.Filed) (hc : c.Sane) {f : Failure} (hs : c.Fails selected s f disk r)
    (hf : ∀ p e, f ≠ .rejected (.storage (.removeDirectory p e))) (hb : c.Becomes disk r c') :
    c'.Filed := by
  cases hs with
  | unchanged => exact h.stays hb
  | unworked => exact h.stays hb
  | emptied => exact absurd rfl (hf _ _)
  | draft => exact Filed.becomes hb fun y u hy k t ht => get?_put_file (h y u hy k t ht)
  | @edit s x t d old new result edit f disk _ _ hr hold hw hn hleft =>
    -- The table whose change could not be written still has the file that it had.
    have hfile : ∀ disk, (∀ q, (∃ content, c.archive.disk.entries.get? q = some (.file content)) →
        ∃ content, disk.entries.get? q = some (.file content)) →
        c.Becomes disk (c.resident.put x (d.replace new)) c' → c'.Filed := by
      intro disk hkeep hb
      refine Filed.becomes hb fun y u hy k v hv => hkeep _ ?_
      rw [OrderedMap.get?_put] at hy
      split at hy
      · next hxy =>
        cases hy
        subst hxy
        rw [Database.replace, OrderedMap.get?_put] at hv
        split at hv
        · cases hv
          rw [(hc.holdable_edit hr hold hw hn).2]
          exact h x d hr _ old hold
        · exact h x d hr k v hv
      · exact h y u hy k v hv
    cases hleft with
    | unwritten => exact hfile _ (fun _ hq => hq) hb
    | draft => exact hfile _ (fun _ hq => get?_put_file hq) hb
    | line => exact hfile _ (fun _ hq => get?_put_file hq) hb
    | missing => exact hfile _ (fun _ hq => hq) hb

end Catalog

end Tabular
