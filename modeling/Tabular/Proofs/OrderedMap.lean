import Tabular.OrderedMap

/-!
# Laws of ordered maps

What a map is after a key came, came again or went, and how its entries are found by their keys.
-/

namespace Tabular.OrderedMap

variable {κ α β : Type}

theorem ext_entries {m n : OrderedMap κ α} (h : m.entries = n.entries) : m = n := by
  cases m
  cases n
  cases h
  rfl

theorem size_eq (m : OrderedMap κ α) : m.size = m.keys.length := (List.length_map _).symm

theorem size_of_keys {m n : OrderedMap κ α} (h : n.keys = m.keys) : n.size = m.size := by
  rw [size_eq, size_eq, h]

theorem keys_map (f : α → β) (m : OrderedMap κ α) : (m.map f).keys = m.keys := by
  simp [keys, map, Function.comp_def]

variable [DecidableEq κ]

theorem has_eq_false_iff {m : OrderedMap κ α} {k : κ} : m.has k = false ↔ m.get? k = none := by
  simp [has]

/-- A key that has nothing after another one came is not that other one. -/
theorem ne_of_get?_put_eq_none {m : OrderedMap κ α} {j k : κ} {a : α}
    (h : (m.put k a).get? j = none) : j ≠ k := by
  rintro rfl
  rw [get?_put_same] at h
  cases h

theorem store_store (k : κ) (a b : α) (es : List (κ × α)) :
    store k b (store k a es) = store k b es := by
  induction es with
  | nil => simp [store]
  | cons e es ih => by_cases h : e.1 = k <;> simp [store, h, ih]

/-- What is stored last counts. -/
@[simp] theorem put_put (m : OrderedMap κ α) (k : κ) (a b : α) : (m.put k a).put k b = m.put k b :=
  ext_entries (store_store k a b m.entries)

/-- A key that is not there has nothing to lose. -/
theorem erase_of_get?_eq_none {m : OrderedMap κ α} {k : κ} (h : m.get? k = none) :
    m.erase k = m := by
  have hk : k ∉ m.entries.map Prod.fst := get?_eq_none_iff.1 h
  refine ext_entries (List.filter_eq_self.2 ?_)
  intro e he
  simpa using fun hek : e.1 = k => hk (hek ▸ List.mem_map_of_mem he)

/-- A new key that goes again leaves nothing behind. -/
theorem erase_put_of_get?_eq_none {m : OrderedMap κ α} {k : κ} (a : α) (h : m.get? k = none) :
    (m.put k a).erase k = m := by
  have hf : m.entries.filter (·.1 ≠ k) = m.entries := congrArg entries (erase_of_get?_eq_none h)
  apply ext_entries
  change (store k a m.entries).filter (·.1 ≠ k) = m.entries
  rw [store_of_not_mem a (get?_eq_none_iff.1 h), List.filter_append, hf]
  simp

theorem mem_entries_of_find {k : κ} {a : α} {es : List (κ × α)} (h : find k es = some a) :
    (k, a) ∈ es := by
  induction es with
  | nil => cases h
  | cons e es ih =>
    by_cases he : e.1 = k
    · simp only [find, he, if_true, Option.some.injEq] at h
      rw [← he, ← h]
      exact List.mem_cons_self
    · simp only [find, he, if_false] at h
      exact List.mem_cons_of_mem _ (ih h)

theorem find_of_mem_entries {k : κ} {a : α} {es : List (κ × α)} (hd : (es.map Prod.fst).Nodup)
    (h : (k, a) ∈ es) : find k es = some a := by
  induction es with
  | nil => cases h
  | cons e es ih =>
    rw [List.map_cons, List.nodup_cons] at hd
    rcases List.mem_cons.1 h with rfl | h
    · simp [find]
    · have he : e.1 ≠ k := fun he => hd.1 (List.mem_map.2 ⟨(k, a), h, he.symm⟩)
      simp [find, he, ih hd.2 h]

/-- The entries are what is found. -/
theorem mem_entries_iff {m : OrderedMap κ α} {k : κ} {a : α} :
    (k, a) ∈ m.entries ↔ m.get? k = some a :=
  ⟨find_of_mem_entries m.distinct, mem_entries_of_find⟩

/-- Only one entry of a map has a key, if any has. -/
theorem filter_entries (m : OrderedMap κ α) (k : κ) :
    m.entries.filter (·.1 = k) = ((m.get? k).map (k, ·)).toList := by
  obtain ⟨es, hd⟩ := m
  change es.filter (·.1 = k) = ((find k es).map (k, ·)).toList
  induction es with
  | nil => rfl
  | cons e es ih =>
    obtain ⟨hnot, hd⟩ := List.nodup_cons.1 hd
    by_cases he : e.1 = k
    · have hnone : es.filter (·.1 = k) = [] := by
        refine List.filter_eq_nil_iff.2 fun f hf => ?_
        simpa using fun hfk : f.1 = k => hnot (he.trans hfk.symm ▸ List.mem_map_of_mem hf)
      subst he
      rw [List.filter_cons_of_pos (by simp), hnone]
      simp [find]
    · rw [List.filter_cons_of_neg (by simpa using he), ih hd]
      simp [find, he]

theorem has_of_keys {m n : OrderedMap κ α} (h : n.keys = m.keys) (k : κ) : n.has k = m.has k := by
  rw [Bool.eq_iff_iff, has_iff_mem_keys, has_iff_mem_keys, h]

theorem size_put_of_has {m : OrderedMap κ α} {k : κ} (a : α) (h : m.has k) :
    (m.put k a).size = m.size := size_of_keys (keys_put_of_has a h)

theorem size_put_of_not_has {m : OrderedMap κ α} {k : κ} (a : α) (h : m.has k = false) :
    (m.put k a).size = m.size + 1 := by
  rw [size_eq, size_eq, keys_put_of_not_has a h, List.length_append, List.length_singleton]

/-- A key that goes takes one entry with it. -/
theorem size_erase_of_has {m : OrderedMap κ α} {k : κ} (h : m.has k) :
    (m.erase k).size + 1 = m.size := by
  obtain ⟨a, ha⟩ := Option.isSome_iff_exists.1 h
  have hfilter := m.filter_entries k
  rw [ha] at hfilter
  have hlength := List.length_eq_countP_add_countP (l := m.entries) fun e => decide (e.1 = k)
  rw [List.countP_eq_length_filter, List.countP_eq_length_filter, hfilter] at hlength
  simpa [size, erase, Nat.add_comm] using hlength.symm

theorem get?_map (f : α → β) (m : OrderedMap κ α) (k : κ) :
    (m.map f).get? k = (m.get? k).map f := by
  change find k (m.entries.map fun e => (e.1, f e.2)) = (find k m.entries).map f
  induction m.entries with
  | nil => rfl
  | cons e es ih => by_cases h : e.1 = k <;> simp [find, h, ih]

theorem get?_foldl_erase (ks : List κ) (m : OrderedMap κ α) (k : κ) :
    (ks.foldl (·.erase ·) m).get? k = if k ∈ ks then none else m.get? k := by
  induction ks generalizing m with
  | nil => rfl
  | cons j ks ih =>
    rw [List.foldl_cons, ih, get?_erase]
    by_cases hj : j = k
    · simp [hj]
    · simp [hj, Ne.symm hj]

end Tabular.OrderedMap
