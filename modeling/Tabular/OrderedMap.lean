/-!
# Ordered maps

A map that remembers the order in which its keys came. Storing under a key that is there keeps its
place; a key that was erased and comes back stands last.
-/

namespace Tabular

structure OrderedMap (κ α : Type) where
  entries : List (κ × α)
  distinct : (entries.map Prod.fst).Nodup
  deriving DecidableEq

namespace OrderedMap

variable {κ α : Type}

def empty : OrderedMap κ α := ⟨[], List.nodup_nil⟩

instance : Inhabited (OrderedMap κ α) := ⟨empty⟩

def keys (m : OrderedMap κ α) : List κ := m.entries.map Prod.fst

def values (m : OrderedMap κ α) : List α := m.entries.map Prod.snd

def size (m : OrderedMap κ α) : Nat := m.entries.length

/-- The same keys in the same order, each value changed by `f`. -/
def map {β : Type} (f : α → β) (m : OrderedMap κ α) : OrderedMap κ β :=
  ⟨m.entries.map fun e => (e.1, f e.2), by simpa [Function.comp_def] using m.distinct⟩

variable [DecidableEq κ]

def find (k : κ) : List (κ × α) → Option α
  | [] => none
  | e :: es => if e.1 = k then some e.2 else find k es

def get? (m : OrderedMap κ α) (k : κ) : Option α := find k m.entries

def has (m : OrderedMap κ α) (k : κ) : Bool := (m.get? k).isSome

def store (k : κ) (a : α) : List (κ × α) → List (κ × α)
  | [] => [(k, a)]
  | e :: es => if e.1 = k then (k, a) :: es else e :: store k a es

theorem find_eq_none_iff {k : κ} {es : List (κ × α)} :
    find k es = none ↔ k ∉ es.map Prod.fst := by
  induction es with
  | nil => simp [find]
  | cons e es ih => by_cases h : e.1 = k <;> simp [find, h, ih, Ne.symm, eq_comm]

theorem map_fst_store_of_mem {k : κ} {es : List (κ × α)} (a : α) (h : k ∈ es.map Prod.fst) :
    (store k a es).map Prod.fst = es.map Prod.fst := by
  induction es with
  | nil => simp at h
  | cons e es ih =>
    by_cases he : e.1 = k
    · simp [store, he]
    · have hk : k ∈ es.map Prod.fst := by
        rcases List.mem_cons.1 h with h | h
        · exact absurd h.symm he
        · exact h
      simp only [store, he, if_false, List.map_cons, ih hk]

theorem store_of_not_mem {k : κ} {es : List (κ × α)} (a : α) (h : k ∉ es.map Prod.fst) :
    store k a es = es ++ [(k, a)] := by
  induction es with
  | nil => rfl
  | cons e es ih =>
    simp only [List.map_cons, List.mem_cons, not_or] at h
    simp [store, Ne.symm h.1, ih h.2]

theorem nodup_store {k : κ} {es : List (κ × α)} (a : α) (h : (es.map Prod.fst).Nodup) :
    ((store k a es).map Prod.fst).Nodup := by
  by_cases hk : k ∈ es.map Prod.fst
  · rwa [map_fst_store_of_mem a hk]
  · rw [store_of_not_mem a hk, List.map_append, List.nodup_append]
    refine ⟨h, by simp, ?_⟩
    intro x hx y hy
    simp only [List.map_cons, List.map_nil, List.mem_singleton] at hy
    subst hy
    rintro rfl
    exact hk hx

/-- Store a value under a key. -/
def put (m : OrderedMap κ α) (k : κ) (a : α) : OrderedMap κ α :=
  ⟨store k a m.entries, nodup_store a m.distinct⟩

/-- Remove a key. -/
def erase (m : OrderedMap κ α) (k : κ) : OrderedMap κ α :=
  ⟨m.entries.filter (·.1 ≠ k), m.distinct.sublist (List.filter_sublist.map Prod.fst)⟩

theorem find_store (k j : κ) (a : α) (es : List (κ × α)) :
    find j (store k a es) = if k = j then some a else find j es := by
  induction es with
  | nil => simp [store, find]
  | cons e es ih =>
    by_cases he : e.1 = k
    · subst he
      by_cases hj : e.1 = j <;> simp [store, find, hj]
    · by_cases hj : e.1 = j
      · subst hj
        simp [store, find, he, Ne.symm he]
      · simp [store, find, he, hj, ih]

theorem find_filter (k j : κ) (es : List (κ × α)) :
    find j (es.filter (·.1 ≠ k)) = if k = j then none else find j es := by
  induction es with
  | nil => simp [find]
  | cons e es ih =>
    by_cases he : e.1 = k
    · subst he
      by_cases hj : e.1 = j
      · simpa [find, hj] using ih
      · simpa [find, hj] using ih
    · by_cases hj : e.1 = j
      · subst hj
        simp [find, he, Ne.symm he]
      · simpa [find, he, hj] using ih

@[simp] theorem get?_empty (k : κ) : (empty : OrderedMap κ α).get? k = none := rfl

theorem get?_put (m : OrderedMap κ α) (k j : κ) (a : α) :
    (m.put k a).get? j = if k = j then some a else m.get? j := find_store k j a m.entries

@[simp] theorem get?_put_same (m : OrderedMap κ α) (k : κ) (a : α) :
    (m.put k a).get? k = some a := by simp [get?_put]

@[simp] theorem get?_put_other (m : OrderedMap κ α) {k j : κ} (a : α) (h : k ≠ j) :
    (m.put k a).get? j = m.get? j := by simp [get?_put, h]

theorem get?_erase (m : OrderedMap κ α) (k j : κ) :
    (m.erase k).get? j = if k = j then none else m.get? j := find_filter k j m.entries

@[simp] theorem get?_erase_same (m : OrderedMap κ α) (k : κ) : (m.erase k).get? k = none := by
  simp [get?_erase]

@[simp] theorem get?_erase_other (m : OrderedMap κ α) {k j : κ} (h : k ≠ j) :
    (m.erase k).get? j = m.get? j := by simp [get?_erase, h]

theorem get?_eq_none_iff {m : OrderedMap κ α} {k : κ} : m.get? k = none ↔ k ∉ m.keys :=
  find_eq_none_iff

theorem has_iff_mem_keys {m : OrderedMap κ α} {k : κ} : m.has k ↔ k ∈ m.keys := by
  rw [has, Option.isSome_iff_ne_none, Ne, get?_eq_none_iff, Decidable.not_not]

theorem keys_put_of_has {m : OrderedMap κ α} {k : κ} (a : α) (h : m.has k) :
    (m.put k a).keys = m.keys := map_fst_store_of_mem a (has_iff_mem_keys.1 h)

theorem keys_put_of_not_has {m : OrderedMap κ α} {k : κ} (a : α) (h : m.has k = false) :
    (m.put k a).keys = m.keys ++ [k] := by
  have hk : k ∉ m.entries.map Prod.fst := fun hm => by
    simp [has_iff_mem_keys.2 hm] at h
  simp [keys, put, store_of_not_mem a hk]

end OrderedMap

end Tabular
