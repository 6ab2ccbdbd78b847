import Mathlib.Data.List.Perm.Basic
import Mathlib.Data.List.Rotate
import Tabular.Proofs.Join.Selecting

/-!
# Joins the other way round

Whether two rows meet does not depend on which of the tables comes first. So a join taken the other
way round has the same rows as often, with the two blocks of cells exchanged, in another order.
-/

namespace Tabular

/-! ## Double loops -/

theorem flatMap_ite_singleton {β γ : Type} (p : β → Bool) (f : β → γ) (bs : List β) :
    (bs.flatMap fun b => if p b then [f b] else []) = (bs.filter p).map f := by
  induction bs with
  | nil => rfl
  | cons b bs ih =>
    rw [List.flatMap_cons, ih, List.filter_cons]
    split <;> rfl

/-- Of two lists, the pairs that belong together come out as often whichever of them is gone through
in the outer loop. -/
theorem flatMap_filter_swap {α β γ : Type} (p : α → β → Bool) (f : α → β → γ) (as : List α)
    (bs : List β) :
    (bs.flatMap fun b => (as.filter fun a => p a b).map fun a => f a b).Perm
      (as.flatMap fun a => (bs.filter (p a)).map (f a)) := by
  induction as with
  | nil => simp
  | cons a as ih =>
    have hcons (b : β) : ((a :: as).filter fun a => p a b).map (fun a => f a b) =
        (if p a b then [f a b] else []) ++ (as.filter fun a => p a b).map fun a => f a b := by
      rw [List.filter_cons]
      split <;> rfl
    simp only [hcons, List.flatMap_cons]
    rw [← flatMap_ite_singleton (p a) (f a) bs]
    exact (List.flatMap_append_perm bs _ _).symm.trans (ih.append_left _)

namespace Table

/-- No cell of the column at the place is an integer of too many digits. -/
def ShortIn (t : Table) (i : Nat) : Prop := ∀ row ∈ t.rows, ∀ v ∈ row[i]?, ¬ Numeral.Overlong v.text

instance (t : Table) (i : Nat) : Decidable (t.ShortIn i) :=
  inferInstanceAs (Decidable (∀ row ∈ t.rows, ∀ v ∈ row[i]?, ¬ Numeral.Overlong v.text))

theorem Sound.legible_getD {t : Table} {column : Text} {i : Nat} (ht : t.Sound) (hs : t.ShortIn i)
    (hi : t.index column = .ok i) {row : Row} (hrow : row ∈ t.rows) :
    (row.getD i Value.null).Legible := by
  have hlt := Name.find?_lt (index_eq_ok_iff.1 hi)
  rw [← (ht.rows row hrow).width_eq] at hlt
  have hcell : row[i]? = some row[i] := List.getElem?_eq_getElem hlt
  have hstored := (ht.rows row hrow).cells row[i] (List.getElem_mem hlt)
  rw [List.getD_eq_getElem?_getD, hcell]
  exact ⟨.inl ⟨_, hstored.typed.symm⟩, hs row hrow _ hcell⟩

end Table

namespace Join

variable {i j : Nat} {key : Value} {left right : List Row}

/-- The cells by which rows are joined stand for the same. -/
def meets (i j : Nat) (l r : Row) : Bool :=
  decide ((l.getD i Value.null).sense = (r.getD j Value.null).sense)

theorem meets_comm (i j : Nat) (l r : Row) : meets i j l r = meets j i r l := by
  simp only [meets, eq_comm]

theorem partners_eq_filter (hkey : key.Legible)
    (h : ∀ r ∈ right, (r.getD j Value.null).Legible) :
    partners key j right =
      .ok (right.filter fun r => decide (key.sense = (r.getD j Value.null).sense)) := by
  induction right with
  | nil => rfl
  | cons r right ih =>
    obtain ⟨hr, hright⟩ := List.forall_mem_cons.1 h
    rw [partners, Value.equals_eq hkey hr, ih hright, List.filter_cons]
    exact congrArg Except.ok (by split <;> rfl)

/-- A join goes through the second table for every row of the first. -/
theorem pairs_eq_flatMap (hl : ∀ l ∈ left, (l.getD i Value.null).Legible)
    (hr : ∀ r ∈ right, (r.getD j Value.null).Legible) :
    pairs left i right j =
      .ok (left.flatMap fun l => (right.filter (meets i j l)).map fun r => l.tail ++ r.tail) := by
  induction left with
  | nil => rfl
  | cons l left ih =>
    obtain ⟨hkey, hleft⟩ := List.forall_mem_cons.1 hl
    rw [pairs, partners_eq_filter hkey hr, ih hleft]
    rfl

/-- The blocks of cells of joined rows, exchanged, are those of the rows joined the other way
round. -/
theorem map_rotate_pairs {width : Nat} (h : ∀ r ∈ right, r.tail.length = width) :
    (right.flatMap fun r => (left.filter (meets j i r)).map fun l => r.tail ++ l.tail).map
        (·.rotate width) =
      right.flatMap fun r =>
        (left.filter fun l => meets i j l r).map fun l => l.tail ++ r.tail := by
  rw [List.map_flatMap]
  refine List.flatMap_congr fun r hr => ?_
  rw [List.map_map, List.filter_congr fun l _ => meets_comm j i r l]
  refine List.map_congr_left fun l _ => ?_
  rw [Function.comp_apply, ← h r hr, List.rotate_append_length_eq]

theorem map_tail_numbered (n : Nat) (rows : List Row) : (numbered n rows).map List.tail = rows := by
  induction rows generalizing n with
  | nil => rfl
  | cons cells rows ih => rw [numbered, List.map_cons, ih, List.tail_cons]

/-- The ids of joined rows count from one. -/
theorem map_head?_numbered (n : Nat) (rows : List Row) : (numbered n rows).map List.head? =
    (List.range' n rows.length).map fun k => some ⟨.number, Text.ofNat k⟩ := by
  induction rows generalizing n with
  | nil => rfl
  | cons cells rows ih =>
    rw [numbered, List.map_cons, ih, List.length_cons, List.range'_succ, List.map_cons]
    rfl

/-- Two tables that were reached can be joined on columns of theirs both ways round, where no cell
of these columns is an integer of too many digits. Without the ids, and with the two blocks of cells
exchanged, the one join has the same rows as the other, each of them as often; both number their
rows from one, and they have as many. -/
theorem joined_both_ways {L R : Table} {x y : Text} {i j : Nat} (hL : L.Reached) (hR : R.Reached)
    (hx : L.Refers x i) (hy : R.Refers y j) (hi : L.ShortIn i) (hj : R.ShortIn j) :
    ∃ header rows header' rows',
      join L R x y = .ok (header, rows) ∧ join R L y x = .ok (header', rows') ∧
      ((rows'.map List.tail).map (·.rotate R.ownColumns.length)).Perm (rows.map List.tail) ∧
      ∃ count, rows.map List.head? =
          (List.range' 1 count).map (fun n => some ⟨.number, Text.ofNat n⟩) ∧
        rows'.map List.head? =
          (List.range' 1 count).map fun n => some ⟨.number, Text.ofNat n⟩ := by
  have hli := (Table.index_eq_ok_iff_refers hL.sound.columns_distinct).2 hx
  have hrj := (Table.index_eq_ok_iff_refers hR.sound.columns_distinct).2 hy
  have hl : ∀ l ∈ L.rows, (l.getD i Value.null).Legible := fun _ => hL.sound.legible_getD hi hli
  have hr : ∀ r ∈ R.rows, (r.getD j Value.null).Legible := fun _ => hR.sound.legible_getD hj hrj
  have hwidth : ∀ r ∈ R.rows, r.tail.length = R.ownColumns.length := by
    intro r hmem
    rw [List.length_tail, (hR.sound.rows r hmem).width_eq, hR.sound.ownColumns_eq,
      List.length_tail]
  have hperm := flatMap_filter_swap (meets i j) (fun l r => l.tail ++ r.tail) L.rows R.rows
  rw [← map_rotate_pairs (i := i) (j := j) hwidth] at hperm
  refine ⟨_, _, _, _, Except.bind_eq_ok_iff.2 ⟨i, hli, Except.bind_eq_ok_iff.2 ⟨j, hrj,
      Except.bind_eq_ok_iff.2 ⟨_, pairs_eq_flatMap hl hr, rfl⟩⟩⟩,
    Except.bind_eq_ok_iff.2 ⟨j, hrj, Except.bind_eq_ok_iff.2 ⟨i, hli,
      Except.bind_eq_ok_iff.2 ⟨_, pairs_eq_flatMap hr hl, rfl⟩⟩⟩, ?_, _,
    map_head?_numbered 1 _, ?_⟩
  · rw [map_tail_numbered, map_tail_numbered]
    exact hperm
  · rw [map_head?_numbered, ← hperm.length_eq, List.length_map]

/-- Two spellings of a number on either side and a null: the five rows come in another order. -/
theorem joined_both_ways_of_spellings :
    let L : Table := ⟨['l'], [Name.id, ['a']], [[⟨.number, ['1']⟩, ⟨.number, ['5']⟩],
      [⟨.number, ['2']⟩, .null], [⟨.number, ['3']⟩, ⟨.number, ['5', '.', '0']⟩]], 4⟩
    let R : Table := ⟨['r'], [Name.id, ['B'], ['c']],
      [[⟨.number, ['1']⟩, ⟨.number, ['+', '5']⟩, .string ['p']],
        [⟨.number, ['2']⟩, .null, .string ['q']],
        [⟨.number, ['3']⟩, ⟨.number, ['5']⟩, .string ['s']]], 4⟩
    (L.Reached ∧ R.Reached ∧ L.Refers ['A'] 1 ∧ R.Refers ['b'] 1 ∧ L.ShortIn 1 ∧ R.ShortIn 1) ∧
    ∃ header rows header' rows', join L R ['A'] ['b'] = .ok (header, rows) ∧
      join R L ['b'] ['A'] = .ok (header', rows') ∧ rows.length = 5 ∧
      ((rows'.map List.tail).map (·.rotate 2)).Perm (rows.map List.tail) ∧
      (rows'.map List.tail).map (·.rotate 2) ≠ rows.map List.tail := by
  intro L R
  have hL : L.Reached := ⟨⟨['l'], [Name.id, ['a']], [], 1⟩, .created ['l'] [['a']] rfl,
    [.insert [⟨.number, ['5']⟩], .insert [.null], .insert [⟨.number, ['5', '.', '0']⟩]], rfl⟩
  have hR : R.Reached := ⟨⟨['r'], [Name.id, ['B'], ['c']], [], 1⟩,
    .created ['r'] [['B'], ['c']] rfl, [.insert [⟨.number, ['+', '5']⟩, .string ['p']],
      .insert [.null, .string ['q']], .insert [⟨.number, ['5']⟩, .string ['s']]], rfl⟩
  have hx : L.Refers ['A'] 1 := ⟨['a'], rfl, by decide⟩
  have hy : R.Refers ['b'] 1 := ⟨['B'], rfl, by decide⟩
  have hi : L.ShortIn 1 := by decide
  have hj : R.ShortIn 1 := by decide
  obtain ⟨header, rows, header', rows', hjoin, hjoin', hperm, -⟩ :=
    joined_both_ways hL hR hx hy hi hj
  have hrows : ∃ r ∈ (join L R ['A'] ['b']).toOption, ∃ r' ∈ (join R L ['b'] ['A']).toOption,
      r.2.length = 5 ∧ (r'.2.map List.tail).map (·.rotate 2) ≠ r.2.map List.tail := by
    decide +kernel
  rw [hjoin, hjoin'] at hrows
  obtain ⟨_, ⟨⟩, _, ⟨⟩, hcount, hne⟩ := hrows
  exact ⟨⟨hL, hR, hx, hy, hi, hj⟩, header, rows, header', rows', hjoin, hjoin', hcount, hperm, hne⟩

end Join

end Tabular
