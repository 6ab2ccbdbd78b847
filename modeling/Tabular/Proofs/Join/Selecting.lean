import Tabular.Proofs.Condition.Stumbling
import Tabular.Proofs.Table.Matching
import Tabular.Proofs.Table.Shown
import Tabular.Proofs.Value.Order

/-!
# Joins by selecting

A join looks for the partners of a key in the second table, and so does a selection by equality with
the key, which compares the other way round. Equality of values that were read is symmetric, so both
find the same rows in the same order: a join is one block after the other, each a row of the first
table beside the rows that a selection by its key finds in the second.
-/

namespace Tabular

namespace Table

/-- A table at some point of its life. -/
def Reached (t : Table) : Prop := ∃ t₀ : Table, t₀.Origin ∧ ∃ cs, t₀.afterAll cs = t

/-- No cell is an integer of too many digits. -/
def Short (t : Table) : Prop := ∀ row ∈ t.rows, ∀ v ∈ row, ¬ Numeral.Overlong v.text

instance (t : Table) : Decidable t.Short :=
  inferInstanceAs (Decidable (∀ row ∈ t.rows, ∀ v ∈ row, ¬ Numeral.Overlong v.text))

/-- The name is that of the column at the place, in some letter case. -/
def Refers (t : Table) (column : Text) (i : Nat) : Prop :=
  ∃ c, t.columns[i]? = some c ∧ Text.lower c = Text.lower column

variable {t : Table} {column : Text} {i : Nat} {row : Row}

theorem Reached.sound (h : t.Reached) : t.Sound := by
  obtain ⟨t₀, ho, cs, rfl⟩ := h
  exact afterAll_sound ho.sound cs

/-- Where no two columns agree in small letters, a name refers to the column that is found. -/
theorem index_eq_ok_iff_refers (h : (t.columns.map Text.lower).Nodup) :
    t.index column = .ok i ↔ t.Refers column i := by
  rw [index_eq_ok_iff, Name.find?, List.findIdx?_eq_some_iff_getElem]
  constructor
  · rintro ⟨hi, hc, -⟩
    exact ⟨_, List.getElem?_eq_getElem hi, by simpa using hc⟩
  · rintro ⟨c, hc, he⟩
    obtain ⟨hi, rfl⟩ := List.getElem?_eq_some_iff.1 hc
    refine ⟨hi, by simpa using he, fun j hj => ?_⟩
    have hne := List.pairwise_iff_getElem.1 h j i (by simp; omega) (by simpa using hi) hj
    simpa [he] using hne

theorem isSome_find?_iff :
    (Name.find? t.columns column).isSome ↔ ∃ i, t.Refers column i := by
  rw [Name.find?, List.findIdx?_isSome, List.any_eq_true]
  constructor
  · rintro ⟨c, hc, he⟩
    obtain ⟨i, hi⟩ := List.mem_iff_getElem?.1 hc
    exact ⟨i, c, hi, by simpa using he⟩
  · rintro ⟨i, c, hc, he⟩
    exact ⟨c, List.mem_of_getElem? hc, by simpa using he⟩

theorem exists_index (h : ∃ i, t.Refers column i) : ∃ i, t.index column = .ok i := by
  obtain ⟨i, hi⟩ := Option.isSome_iff_exists.1 (isSome_find?_iff.2 h)
  exact ⟨i, index_eq_ok_iff.2 hi⟩

theorem index_eq_error (h : ¬ ∃ i, t.Refers column i) :
    t.index column = .error (Rejection.unknownColumn column t.name) := by
  have hnone : Name.find? t.columns column = none := by
    simpa using mt isSome_find?_iff.1 h
  rw [index, Name.resolve, hnone]
  rfl

theorem Sound.exists_cell (ht : t.Sound) (hs : t.Short) (hi : t.index column = .ok i)
    (hrow : row ∈ t.rows) : ∃ v, row[i]? = some v ∧ v.Legible := by
  have hlt := Name.find?_lt (index_eq_ok_iff.1 hi)
  rw [← (ht.rows row hrow).width_eq] at hlt
  refine ⟨_, List.getElem?_eq_getElem hlt, .inl ⟨row[i].text, ?_⟩, hs row hrow _ ?_⟩
  · exact ((ht.rows row hrow).cells _ (List.getElem_mem hlt)).typed.symm
  · exact List.getElem_mem hlt

/-- The columns beside the id. -/
def ownColumns (t : Table) : List Text := t.columns.filter fun c => !Name.isId c

/-- The first column is the id's, and no other is. -/
theorem Sound.ownColumns_eq (ht : t.Sound) : t.ownColumns = t.columns.tail := by
  obtain ⟨c, cs, hc, hid⟩ := ht.columns_eq_cons
  have hcs : ∀ d ∈ cs, Name.isId d = false := by simpa [hc] using ht.id_once
  rw [ownColumns, hc, List.filter_cons_of_neg (by simp [hid]), List.tail_cons,
    List.filter_eq_self.2 fun d hd => by simp [hcs d hd]]

end Table

namespace Value

theorem equals_comm {a b : Value} (ha : a.Legible) (hb : b.Legible) : a.equals b = b.equals a := by
  rw [equals_eq ha hb, equals_eq hb ha]
  simp only [eq_comm]

end Value

namespace Join

open Table (accepted)

variable {L R : Table} {x y : Text} {i j : Nat} {key : Value} {left right : List Row}

/-- The columns beside the id, each with the table's name before it. -/
def qualifiedOwn (t : Table) : List Text := t.ownColumns.map fun c => t.name ++ ['.'] ++ c

/-- A row beside each row of a block, all of them without their ids. -/
def beside (l : Row) (block : List Row) : List Row := block.map fun r => l.tail ++ r.tail

/-- The rows of a join from the blocks of the rows on the left. -/
def joined (left : List Row) (blocks : List (List Row)) : List Row :=
  (List.zipWith beside left blocks).flatten

/-- The partners of a key are the rows whose cell equals it. -/
theorem partners_eq_accepted (hkey : key.Legible)
    (h : ∀ row ∈ right, (row.getD j Value.null).Legible) :
    partners key j right =
      accepted (fun row => Condition.test .eq (row.getD j Value.null) key) right := by
  induction right with
  | nil => rfl
  | cons row right ih =>
    obtain ⟨hrow, hright⟩ := List.forall_mem_cons.1 h
    rw [partners, accepted, ih hright, Value.equals_comm hkey hrow]
    rfl

/-- A selection by equality with a key finds the partners of the key, and it finds them all. -/
theorem exists_partners (hj : R.index y = .ok j) (hkey : key.Legible)
    (h : ∀ row ∈ R.rows, (row.getD j Value.null).Legible) :
    ∃ block, R.select (some (.compare y .eq key)) = .ok block ∧
      partners key j R.rows = .ok block := by
  have hresolve : (Name.resolve R.columns y []).mapError Failure.rejected = .ok j :=
    Except.mapError_eq_ok_iff.2 (Name.resolve_eq_ok_iff.2 (Table.index_eq_ok_iff.1 hj))
  have hbind : Condition.bindOptional R.columns (some (.compare y .eq key)) =
      .ok fun row => Condition.test .eq (row.getD j Value.null) key :=
    Except.bind_of_ok hresolve _
  have hjudges : Predicate.Judges (fun row => Condition.test .eq (row.getD j Value.null) key)
      R.rows := fun row hrow => ⟨_, Condition.test_eq (h row hrow) hkey⟩
  refine ⟨_, Table.select_eq hbind hjudges, ?_⟩
  rw [partners_eq_accepted hkey h, Table.accepted_eq_filter hjudges, Table.matching]

/-- The blocks of the rows on the left, and what the join makes of them. -/
theorem exists_blocks (hj : R.index y = .ok j)
    (hright : ∀ row ∈ R.rows, (row.getD j Value.null).Legible)
    (hleft : ∀ l ∈ left, ∃ key, l[i]? = some key ∧ key.Legible) :
    ∃ blocks, List.Forall₂ (fun l block => ∃ key, l[i]? = some key ∧
        R.select (some (.compare y .eq key)) = .ok block) left blocks ∧
      pairs left i R.rows j = .ok (joined left blocks) := by
  induction left with
  | nil => exact ⟨[], .nil, rfl⟩
  | cons l left ih =>
    obtain ⟨⟨key, hcell, hkey⟩, hleft⟩ := List.forall_mem_cons.1 hleft
    obtain ⟨block, hselect, hpartners⟩ := exists_partners hj hkey hright
    obtain ⟨blocks, hblocks, hpairs⟩ := ih hleft
    have hgetD : l.getD i Value.null = key := by simp [hcell]
    refine ⟨block :: blocks, .cons ⟨key, hcell, hselect⟩ hblocks, ?_⟩
    rw [pairs, hgetD]
    exact Except.bind_eq_ok_iff.2 ⟨_, hpartners, Except.bind_eq_ok_iff.2 ⟨_, hpairs, rfl⟩⟩

theorem numbered_eq_mapIdx (n : Nat) (rows : List Row) :
    numbered n rows = rows.mapIdx fun k cells => ⟨.number, Text.ofNat (k + n)⟩ :: cells := by
  induction rows generalizing n with
  | nil => rfl
  | cons cells rows ih =>
    rw [numbered, ih, List.mapIdx_cons, Nat.zero_add]
    simp only [Nat.add_assoc, Nat.add_comm n 1]

theorem length_of_mem_pairs (hl : L.Sound) (hr : R.Sound) {rows : List Row}
    (h : pairs L.rows i R.rows j = .ok rows) : ∀ cells ∈ rows,
      cells.length = L.ownColumns.length + R.ownColumns.length := by
  intro cells hcells
  obtain ⟨a, ha, b, hb, rfl⟩ := mem_pairs h cells hcells
  simp [(hl.rows a ha).width_eq, (hr.rows b hb).width_eq, hl.ownColumns_eq, hr.ownColumns_eq]

/-- A join of two tables on columns of theirs stands under the id and the columns beside it of both
tables. Each row of the first table makes a block, in the order of the table: beside it stand the
rows that a selection by its key finds in the second table, in the order of the selection. The rows
are numbered from one and as wide as the header. A column that a table does not have is named in the
failure, whether there are rows or not. -/
theorem joins_selected_blocks (L R : Table) (x y : Text) :
    (∀ i j, L.Reached → R.Reached → L.Short → R.Short → L.Refers x i → R.Refers y j →
      ∃ blocks, List.Forall₂ (fun l block => ∃ key, l[i]? = some key ∧
          R.select (some (.compare y .eq key)) = .ok block) L.rows blocks ∧
        ∃ header rows, join L R x y = .ok (header, rows) ∧
          header = Name.id :: (qualifiedOwn L ++ qualifiedOwn R) ∧
          rows = (joined L.rows blocks).mapIdx
            (fun n cells => ⟨.number, Text.ofNat (n + 1)⟩ :: cells) ∧
          ∀ row ∈ rows, row.length = header.length) ∧
    ((¬ ∃ i, L.Refers x i) → join L R x y = .error (Rejection.unknownColumn x L.name)) ∧
    ((∃ i, L.Refers x i) → (¬ ∃ j, R.Refers y j) →
      join L R x y = .error (Rejection.unknownColumn y R.name)) := by
  refine ⟨fun i j hL hR hLs hRs hx hy => ?_, fun hx => ?_, fun hx hy => ?_⟩
  · have hi := (Table.index_eq_ok_iff_refers hL.sound.columns_distinct).2 hx
    have hj := (Table.index_eq_ok_iff_refers hR.sound.columns_distinct).2 hy
    have hcell : ∀ r ∈ R.rows, (r.getD j Value.null).Legible := fun r hr => by
      obtain ⟨v, hv, hread⟩ := hR.sound.exists_cell hRs hj hr
      simpa [hv] using hread
    obtain ⟨blocks, hblocks, hpairs⟩ := exists_blocks hj hcell
      fun l hl => hL.sound.exists_cell hLs hi hl
    refine ⟨blocks, hblocks, _, _, ?_, rfl, rfl, fun row hrow => ?_⟩
    · rw [qualifiedOwn, qualifiedOwn, hL.sound.ownColumns_eq, hR.sound.ownColumns_eq,
        ← numbered_eq_mapIdx 1]
      exact Except.bind_eq_ok_iff.2 ⟨i, hi, Except.bind_eq_ok_iff.2 ⟨j, hj,
        Except.bind_eq_ok_iff.2 ⟨_, hpairs, rfl⟩⟩⟩
    · obtain ⟨n, hn, rfl⟩ := List.mem_mapIdx.1 hrow
      have hcells := length_of_mem_pairs hL.sound hR.sound hpairs _ (List.getElem_mem hn)
      simp [qualifiedOwn, hcells]
  · exact Except.bind_of_error (Table.index_eq_error hx) _
  · obtain ⟨i, hi⟩ := Table.exists_index hx
    exact (Except.bind_of_ok hi _).trans (Except.bind_of_error (Table.index_eq_error hy) _)

/-- A number finds its other spellings in the order of the second table, and null finds null. -/
theorem joins_selected_blocks_of_null :
    let L : Table := ⟨['l'], [Name.id, ['a']],
      [[⟨.number, ['1']⟩, ⟨.number, ['5']⟩], [⟨.number, ['2']⟩, .null]], 3⟩
    let R : Table := ⟨['r'], [Name.id, ['B']], [[⟨.number, ['1']⟩, .null],
      [⟨.number, ['2']⟩, ⟨.number, ['5', '.', '0']⟩], [⟨.number, ['3']⟩, ⟨.number, ['+', '5']⟩]], 4⟩
    (L.Reached ∧ R.Reached ∧ L.Short ∧ R.Short ∧ L.Refers ['A'] 1 ∧ R.Refers ['b'] 1) ∧
    ∃ blocks, List.Forall₂ (fun l block => ∃ key, l[1]? = some key ∧
        R.select (some (.compare ['b'] .eq key)) = .ok block) L.rows blocks ∧
      (joined L.rows blocks).mapIdx (fun n cells => ⟨.number, Text.ofNat (n + 1)⟩ :: cells) =
        [[⟨.number, ['1']⟩, ⟨.number, ['5']⟩, ⟨.number, ['5', '.', '0']⟩],
          [⟨.number, ['2']⟩, ⟨.number, ['5']⟩, ⟨.number, ['+', '5']⟩],
          [⟨.number, ['3']⟩, .null, .null]] := by
  intro L R
  have hL : L.Reached := ⟨⟨['l'], [Name.id, ['a']], [], 1⟩, .created ['l'] [['a']] rfl,
    [.insert [⟨.number, ['5']⟩], .insert [.null]], rfl⟩
  have hR : R.Reached := ⟨⟨['r'], [Name.id, ['B']], [], 1⟩, .created ['r'] [['B']] rfl,
    [.insert [.null], .insert [⟨.number, ['5', '.', '0']⟩], .insert [⟨.number, ['+', '5']⟩]], rfl⟩
  have hLs : L.Short := by decide
  have hRs : R.Short := by decide
  have hx : L.Refers ['A'] 1 := ⟨['a'], rfl, by decide⟩
  have hy : R.Refers ['b'] 1 := ⟨['B'], rfl, by decide⟩
  obtain ⟨blocks, hblocks, header, rows, hjoin, -, rfl, -⟩ :=
    (joins_selected_blocks L R ['A'] ['b']).1 1 1 hL hR hLs hRs hx hy
  have hrows : (join L R ['A'] ['b']).toOption.map Prod.snd =
      some [[⟨.number, ['1']⟩, ⟨.number, ['5']⟩, ⟨.number, ['5', '.', '0']⟩],
        [⟨.number, ['2']⟩, ⟨.number, ['5']⟩, ⟨.number, ['+', '5']⟩],
        [⟨.number, ['3']⟩, .null, .null]] := by decide +kernel
  rw [hjoin] at hrows
  exact ⟨⟨hL, hR, hLs, hRs, hx, hy⟩, blocks, hblocks, Option.some.inj hrows⟩

end Join

end Tabular
