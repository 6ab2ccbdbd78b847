import Tabular.Proofs.Table.Matching
import Tabular.Proofs.Table.Operations

/-!
# Single rows

A row that is inserted holds its texts, a change that does not match it leaves it as it is, and among
the rows that are shown it is the only one with its id.
-/

namespace Tabular

/-- Of members with different keys, only one has its own key. -/
theorem filter_eq_singleton {α κ : Type} [DecidableEq κ] {f : α → κ} {as : List α} {a : α}
    (hd : (as.map f).Nodup) (ha : a ∈ as) : as.filter (fun b => f b = f a) = [a] := by
  induction as with
  | nil => cases ha
  | cons b as ih =>
    rw [List.map_cons, List.nodup_cons] at hd
    obtain rfl | ha := List.mem_cons.1 ha
    · have hnone : as.filter (fun b => f b = f a) = [] := by
        refine List.filter_eq_nil_iff.2 fun b hb => ?_
        simpa using fun he : f b = f a => hd.1 (he ▸ List.mem_map_of_mem hb)
      rw [List.filter_cons_of_pos (by simp), hnone]
    · have hne : f b ≠ f a := fun he => hd.1 (he ▸ List.mem_map_of_mem ha)
      rw [List.filter_cons_of_neg (by simpa using hne), ih hd.2 ha]

namespace Table

variable {t new : Table} {texts : List Text} {row : Row} {n : Nat} {condition : Option Condition}
  {assignments : List (Text × Value)}

theorem storedAll_of_fits (h : ∀ s ∈ texts, s.fitsField) :
    storedAll (texts.map Value.string) = .ok (texts.map Value.ofField) := by
  induction texts with
  | nil => rfl
  | cons s texts ih =>
    obtain ⟨hs, hrest⟩ := List.forall_mem_cons.1 h
    exact Except.bind_eq_ok_iff.2 ⟨_, stored_eq_ok_iff.2 ⟨hs, rfl⟩,
      Except.bind_eq_ok_iff.2 ⟨_, ih hrest, rfl⟩⟩

/-- Texts that fit into fields can be inserted, as many as there are columns beside the id. -/
theorem insert_texts (hlen : texts.length = t.columns.length - 1) (hfit : ∀ s ∈ texts, s.fitsField)
    (hshort : (Text.ofNat t.nextId).length ≤ Text.digitLimit) :
    ∃ row new, t.insert (texts.map Value.string) = .ok (row, new) ∧ row ∈ new.rows ∧
      row.map (·.text) = Text.ofNat t.nextId :: texts := by
  let row : Row := ⟨.number, Text.ofNat t.nextId⟩ :: texts.map Value.ofField
  have hid := Except.mapError_eq_ok_iff (f := Failure.number).2
    (Value.ofNat_eq_ok_iff.2 ⟨rfl, hshort⟩)
  refine ⟨row, { t with rows := t.rows ++ [row], nextId := t.nextId + 1 }, ?_, by simp, ?_⟩
  · rw [insert, if_neg (by simp [hlen])]
    exact Except.bind_eq_ok_iff.2 ⟨_, storedAll_of_fits hfit, Except.bind_eq_ok_iff.2 ⟨_, hid, rfl⟩⟩
  · simp [row, Function.comp_def]

/-! ## Changes of other rows -/

theorem judges_of_delete (h : t.delete condition = .ok (n, new)) :
    ∃ p, Condition.bindOptional t.columns condition = .ok p ∧ p.Judges t.rows := by
  obtain ⟨p, hb, h⟩ := Except.bind_eq_ok_iff.1 h
  obtain ⟨keep, hk, -⟩ := Except.bind_eq_ok_iff.1 h
  refine ⟨p, hb, ?_⟩
  rcases all_ok_or_firstBad p t.rows with hj | ⟨fault, hbad⟩
  · exact hj
  · cases hk.symm.trans (accepted_eq_error (Predicate.FailsWith.opposite hbad))

theorem judges_of_update (h : t.update condition assignments = .ok (n, new)) :
    ∃ cells p, t.targets [] assignments = .ok cells ∧
      Condition.bindOptional t.columns condition = .ok p ∧ p.Judges t.rows := by
  obtain ⟨cells, hc, h⟩ := Except.bind_eq_ok_iff.1 h
  obtain ⟨p, hb, h⟩ := Except.bind_eq_ok_iff.1 h
  obtain ⟨yes, hy, -⟩ := Except.bind_eq_ok_iff.1 h
  refine ⟨cells, p, hc, hb, ?_⟩
  rcases all_ok_or_firstBad p t.rows with hj | ⟨fault, hbad⟩
  · exact hj
  · cases hy.symm.trans (verdicts_eq_error hbad)

/-- Is the row of an id one that the condition holds of? -/
def strikes (t : Table) (id : Nat) (condition : Option Condition) : Bool :=
  match Condition.bindOptional t.columns condition with
  | .ok p => t.rows.any fun row => rowId row = id && p.holds row
  | .error _ => false

theorem not_holds_of_strikes {p : Predicate}
    (hb : Condition.bindOptional t.columns condition = .ok p) (hrow : row ∈ t.rows)
    (hs : t.strikes (rowId row) condition = false) : p.holds row = false := by
  simp only [strikes, hb, List.any_eq_false, Bool.and_eq_true, decide_eq_true_eq, not_and] at hs
  simpa using hs row hrow rfl

theorem mem_of_delete (h : t.delete condition = .ok (n, new)) (hrow : row ∈ t.rows)
    (hs : t.strikes (rowId row) condition = false) : row ∈ new.rows := by
  obtain ⟨p, hb, hj⟩ := judges_of_delete h
  cases h.symm.trans (delete_eq hb hj)
  exact List.mem_filter.2 ⟨hrow, by rw [not_holds_of_strikes hb hrow hs]; rfl⟩

theorem mem_of_update (h : t.update condition assignments = .ok (n, new)) (hrow : row ∈ t.rows)
    (hs : t.strikes (rowId row) condition = false) : row ∈ new.rows := by
  obtain ⟨cells, p, hc, hb, hj⟩ := judges_of_update h
  cases h.symm.trans (update_eq hc hb hj)
  exact List.mem_map.2 ⟨row, hrow, by rw [not_holds_of_strikes hb hrow hs]; rfl⟩

/-! ## What is shown -/

/-- The id of a row is read from the first of its texts. -/
theorem rowId_eq (row : Row) :
    rowId row = Text.toNat ((row.map (·.text)).head?.getD Value.null.text) := by
  cases row <;> rfl

/-- Of all rows of a sound table as they are shown, only one begins as a given one does. -/
theorem Sound.filter_texts (ht : t.Sound) (hrow : row ∈ t.rows) :
    (t.rows.map fun r => r.map (·.text)).filter
      (fun fields => fields.head? = (row.map (·.text)).head?) = [row.map (·.text)] := by
  have hids : ((t.rows.map fun r => r.map (·.text)).map List.head?).map
      (fun id : Option Text => Text.toNat (id.getD Value.null.text)) = t.rows.map rowId := by
    rw [List.map_map, List.map_map]
    exact List.map_congr_left fun r _ => (rowId_eq r).symm
  exact filter_eq_singleton (.of_map _ (hids ▸ ht.ids_distinct)) (List.mem_map_of_mem hrow)

end Table

end Tabular
