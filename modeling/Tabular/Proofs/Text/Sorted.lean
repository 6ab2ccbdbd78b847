import Tabular.Text.Basic

/-!
# Sorted texts

The order of code points is total, so that sorted texts do not depend on how they stood before.
-/

namespace Tabular.Text

theorem precedes_total (s t : Text) : precedes s t ∨ precedes t s := by
  induction s generalizing t with
  | nil => exact .inl rfl
  | cons c s ih =>
    cases t with
    | nil => exact .inr rfl
    | cons d t =>
      simp only [precedes, Bool.or_eq_true, Bool.and_eq_true, decide_eq_true_eq, beq_iff_eq]
      rcases Nat.lt_trichotomy c.toNat d.toNat with h | h | h
      · exact .inl (.inl h)
      · have hc : c = d := Char.toNat_inj.1 h
        subst hc
        rcases ih t with ht | ht
        · exact .inl (.inr ⟨rfl, ht⟩)
        · exact .inr (.inr ⟨rfl, ht⟩)
      · exact .inr (.inl h)

theorem precedes_antisymm {s t : Text} (h : precedes s t) (h' : precedes t s) : s = t := by
  induction s generalizing t with
  | nil =>
    cases t with
    | nil => rfl
    | cons d t => cases h'
  | cons c s ih =>
    cases t with
    | nil => cases h
    | cons d t =>
      simp only [precedes, Bool.or_eq_true, Bool.and_eq_true, decide_eq_true_eq, beq_iff_eq] at h h'
      rcases h with h | ⟨rfl, h⟩
      · rcases h' with h' | ⟨rfl, -⟩ <;> omega
      · rcases h' with h' | ⟨-, h'⟩
        · omega
        · rw [ih h h']

theorem precedes_trans {s t u : Text} (h : precedes s t) (h' : precedes t u) : precedes s u := by
  induction s generalizing t u with
  | nil => rfl
  | cons c s ih =>
    cases t with
    | nil => cases h
    | cons d t =>
      cases u with
      | nil => cases h'
      | cons e u =>
        simp only [precedes, Bool.or_eq_true, Bool.and_eq_true, decide_eq_true_eq, beq_iff_eq]
          at h h' ⊢
        rcases h with h | ⟨rfl, h⟩
        · rcases h' with h' | ⟨rfl, -⟩
          · exact .inl (by omega)
          · exact .inl h
        · rcases h' with h' | ⟨rfl, h'⟩
          · exact .inl h'
          · exact .inr ⟨rfl, ih h h'⟩

theorem place_pairwise (t : Text) {us : List Text} (h : us.Pairwise fun s t => precedes s t) :
    (place t us).Pairwise fun s t => precedes s t := by
  induction us with
  | nil => exact List.pairwise_singleton _ _
  | cons u us ih =>
    obtain ⟨hu, hus⟩ := List.pairwise_cons.1 h
    unfold place
    split
    · next htu =>
      refine List.pairwise_cons.2 ⟨?_, h⟩
      intro s hs
      rcases List.mem_cons.1 hs with rfl | hs
      · exact htu
      · exact precedes_trans htu (hu s hs)
    · next htu =>
      refine List.pairwise_cons.2 ⟨?_, ih hus⟩
      intro s hs
      rcases List.mem_cons.1 ((place_perm t us).subset hs) with rfl | hs
      · exact (precedes_total _ _).resolve_left htu
      · exact hu s hs

theorem sorted_pairwise (ts : List Text) : (sorted ts).Pairwise fun s t => precedes s t := by
  induction ts with
  | nil => exact .nil
  | cons t ts ih => exact place_pairwise t ih

/-- The same texts are sorted into the same list. -/
theorem sorted_eq_of_mem_iff {ts us : List Text} (ht : (sorted ts).Nodup) (hu : (sorted us).Nodup)
    (h : ∀ t, t ∈ sorted ts ↔ t ∈ sorted us) : sorted ts = sorted us := by
  have hp : (sorted ts).Perm (sorted us) := (List.perm_ext_iff_of_nodup ht hu).2 h
  exact hp.eq_of_pairwise (fun _ _ _ _ => precedes_antisymm) (sorted_pairwise ts) (sorted_pairwise us)

end Tabular.Text
