import Tabular.Join
import Tabular.Proofs.Condition.Stumbling
import Tabular.Proofs.Table.Reading

/-!
# Tables and integers that are too long

What is done with sound tables balks at a number only over an integer of more digits than the limit:
in the condition that judges the rows, in the cells that it reads, in the id of a new row, and in
the id field of a file.
-/

namespace Tabular

namespace Table

variable {t : Table} {c : Condition}

/-! ## Judging rows -/

/-- Judging the rows comes to an integer that is too long, in binding the condition or at a row
before which every row is judged. -/
def StumblesOver (t : Table) (c : Condition) : Prop :=
  c.StumblesBinding t.columns ∨ (∃ p, c.bind t.columns = .ok p) ∧
    FirstBad (fun row => ∃ answer, c.Says t.columns row answer) (c.StumblesOn t.columns) t.rows

theorem SoundRow.isSpelled {width : Nat} {row : Row} (h : SoundRow width row) :
    ∀ v ∈ row, v.IsSpelled := fun v hv => (h.cells v hv).isSpelled

/-- However the rows are gone through, the judging of them balks where it stumbles. -/
theorem balks_judging_iff {β : Type} {judge : Predicate → Except Failure β}
    (hj : ∀ p, Balks (judge p) ↔
      FirstBad (fun row => ∃ answer, p row = .ok answer) (fun row => Balks (p row)) t.rows)
    (ht : t.Sound) (hc : c.IsSpelled) :
    Balks (c.bind t.columns >>= judge) ↔ t.StumblesOver c := by
  rw [balks_bind, Condition.balks_bind_iff hc, StumblesOver]
  refine or_congr_right ?_
  constructor
  · rintro ⟨p, hp, h⟩
    refine ⟨⟨p, hp⟩, (firstBad_congr (fun row _ => ?_) fun row hrow => ?_).1 ((hj p).1 h)⟩
    · simp [Condition.Says, hp]
    · exact Condition.balks_row_iff hc (ht.rows row hrow).isSpelled hp
  · rintro ⟨⟨p, hp⟩, h⟩
    refine ⟨p, hp, (hj p).2 ((firstBad_congr (fun row _ => ?_) fun row hrow => ?_).1 h)⟩
    · simp [Condition.Says, hp]
    · exact (Condition.balks_row_iff hc (ht.rows row hrow).isSpelled hp).symm

theorem balks_accepted (p : Predicate) (rows : List Row) : Balks (accepted p rows) ↔
    FirstBad (fun row => ∃ answer, p row = .ok answer) (fun row => Balks (p row)) rows :=
  balks_through (accepted p) (g := fun row (yes : Bool) rest => if yes then row :: rest else rest)
    rfl (fun _ _ => rfl) rows

theorem balks_verdicts (p : Predicate) (rows : List Row) : Balks (verdicts p rows) ↔
    FirstBad (fun row => ∃ answer, p row = .ok answer) (fun row => Balks (p row)) rows :=
  balks_through (verdicts p) rfl (fun _ _ => rfl) rows

/-! ## Operations -/

theorem not_balks_stored (v : Value) : ¬ Balks (stored v) := by
  unfold stored
  split <;> simp

theorem not_balks_storedAll (vs : List Value) : ¬ Balks (storedAll vs) := by
  rw [balks_through storedAll rfl (fun _ _ => rfl)]
  rintro ⟨front, v, back, -, -, h⟩
  exact not_balks_stored v h

theorem exists_storedAll_iff {vs : List Value} :
    (∃ ws, storedAll vs = .ok ws) ↔ ∀ v ∈ vs, v.text.fitsField := by
  induction vs with
  | nil => simp [storedAll]
  | cons v vs ih =>
    rw [List.forall_mem_cons, ← ih]
    simp only [storedAll, Except.bind_eq_ok_iff, Except.pure_eq_ok_iff, stored_eq_ok_iff]
    constructor
    · rintro ⟨_, _, ⟨hv, -⟩, ws, hws, -⟩
      exact ⟨hv, ws, hws⟩
    · rintro ⟨hv, ws, hws⟩
      exact ⟨_, _, ⟨hv, rfl⟩, ws, hws, rfl⟩

theorem not_balks_index (t : Table) (column : Text) : ¬ Balks (t.index column) :=
  not_balks_mapError_rejected _

theorem not_balks_targets (t : Table) (before : List (Nat × Value))
    (assignments : List (Text × Value)) : ¬ Balks (t.targets before assignments) := by
  induction assignments generalizing before with
  | nil => exact not_balks_ok _
  | cons a rest ih =>
    obtain ⟨column, v⟩ := a
    unfold targets
    split
    · exact not_balks_rejected _
    · rw [balks_bind]
      rintro (h | ⟨i, -, h⟩)
      · exact not_balks_index t column h
      · split at h
        · exact not_balks_rejected _ h
        · rw [balks_bind] at h
          obtain h | ⟨w, -, h⟩ := h
          · exact not_balks_stored v h
          · exact ih _ h

theorem not_balks_project (t : Table) (rows : List Row) (columns : Option (List Text)) :
    ¬ Balks (t.project rows columns) := by
  cases columns with
  | none => exact not_balks_ok _
  | some names =>
    rw [project, balks_bind_of_not fun _ => not_balks_pure _,
      balks_through t.indexes rfl fun _ _ => rfl]
    rintro ⟨front, name, back, -, -, h⟩
    exact not_balks_index t name h

/-- Inserting balks exactly if nothing is wrong with the values and the next id is too long. -/
theorem balks_insert_iff {values : List Value} : Balks (t.insert values) ↔
    values.length = t.columns.length - 1 ∧ (∀ v ∈ values, v.text.fitsField) ∧
      Text.digitLimit < (Text.ofNat t.nextId).length := by
  have hid : Balks ((Value.ofNat t.nextId).mapError Failure.number) ↔
      Text.digitLimit < (Text.ofNat t.nextId).length := by
    rw [balks_mapError_number, Value.ofNat, Text.ofNatWithin]
    split <;> simp_all [Except.map]
  unfold insert
  split
  · next hl => simp [hl]
  · next hl =>
    rw [balks_bind, ← exists_storedAll_iff]
    simp only [not_balks_storedAll, false_or, not_not.1 hl, true_and]
    constructor
    · rintro ⟨cells, hcells, h⟩
      exact ⟨⟨cells, hcells⟩, hid.1 ((balks_bind_of_not fun _ => not_balks_pure _).1 h)⟩
    · rintro ⟨⟨cells, hcells⟩, h⟩
      exact ⟨cells, hcells, (balks_bind_of_not fun _ => not_balks_pure _).2 (hid.2 h)⟩

/-- A missing condition is no reason to balk. -/
theorem balks_optional_iff {β : Type} {judge : Predicate → Except Failure β}
    (hj : ∀ p, Balks (judge p) ↔
      FirstBad (fun row => ∃ answer, p row = .ok answer) (fun row => Balks (p row)) t.rows)
    (ht : t.Sound) {condition : Option Condition} (hc : ∀ c ∈ condition, c.IsSpelled) :
    Balks (Condition.bindOptional t.columns condition >>= judge) ↔
      ∃ c ∈ condition, t.StumblesOver c := by
  cases condition with
  | none =>
    have h : ¬ FirstBad (fun _ => ∃ answer, (.ok true : Except Failure Bool) = .ok answer)
        (fun _ => Balks (.ok true : Except Failure Bool)) t.rows := by
      rintro ⟨front, row, back, -, -, h⟩
      exact not_balks_ok _ h
    simpa [Condition.bindOptional, bind, Except.bind] using (hj _).not.2 h
  | some c =>
    have h := balks_judging_iff hj ht (hc c rfl)
    simpa [Condition.bindOptional] using h

theorem balks_select_iff (ht : t.Sound) {condition : Option Condition}
    (hc : ∀ c ∈ condition, c.IsSpelled) :
    Balks (t.select condition) ↔ ∃ c ∈ condition, t.StumblesOver c :=
  balks_optional_iff (fun p => balks_accepted p t.rows) ht hc

theorem balks_delete_iff (ht : t.Sound) {condition : Option Condition}
    (hc : ∀ c ∈ condition, c.IsSpelled) :
    Balks (t.delete condition) ↔ ∃ c ∈ condition, t.StumblesOver c := by
  refine balks_optional_iff (fun p => ?_) ht hc
  rw [balks_bind_of_not fun _ => not_balks_pure _, balks_accepted]
  exact firstBad_congr (fun row _ => by cases p row <;> simp [Except.map]) fun row _ => balks_map

/-- Updating looks at the assignments before it judges any row. -/
theorem balks_update_iff (ht : t.Sound) {condition : Option Condition}
    (hc : ∀ c ∈ condition, c.IsSpelled) (assignments : List (Text × Value)) :
    Balks (t.update condition assignments) ↔
      (∃ cells, t.targets [] assignments = .ok cells) ∧ ∃ c ∈ condition, t.StumblesOver c := by
  rw [update, balks_bind]
  simp only [not_balks_targets, false_or, ← exists_and_right]
  refine exists_congr fun cells => and_congr_right fun _ => balks_optional_iff (fun p => ?_) ht hc
  rw [balks_bind_of_not fun _ => not_balks_pure _, balks_verdicts]

theorem not_balks_addColumn (t : Table) (column : Text) : ¬ Balks (t.addColumn column) := by
  rw [addColumn, balks_bind_of_not fun _ => not_balks_pure _]
  exact not_balks_mapError_rejected _

theorem not_balks_dropColumn (t : Table) (column : Text) : ¬ Balks (t.dropColumn column) := by
  unfold dropColumn
  split
  · exact not_balks_rejected _
  · rw [balks_bind_of_not fun _ => not_balks_pure _]
    exact not_balks_index t column

/-! ## Files -/

/-- A row line with a field for each column whose id has more digits than are read. -/
structure OverlongId (width : Nat) (line : Text) : Prop where
  count : (fields line).length = width
  digits : (fields line).headD [] ≠ [] ∧ ∀ c ∈ (fields line).headD [], Text.isAsciiDigit c
  long : Text.digitLimit < ((fields line).headD []).length

/-- Reading the text as a table file comes to an id that is too long, after lines that are the rows
of a table. -/
def StumblesReading (text : Text) : Prop :=
  ∃ header columns front line back rows, lines text = header :: (front ++ line :: back) ∧
    decodeHeader header = .ok columns ∧ List.Forall₂ (LineHolds columns.length) front rows ∧
    (rows.map rowId).Nodup ∧ OverlongId columns.length line

theorem balks_decodeId_iff {path field : Text} {line : Nat} : Balks (decodeId path line field) ↔
    (field ≠ [] ∧ ∀ c ∈ field, Text.isAsciiDigit c) ∧ Text.digitLimit < field.length := by
  unfold decodeId
  split
  · next h =>
    simp only [Bool.or_eq_true, List.isEmpty_iff, Bool.not_eq_true', Bool.eq_false_iff, ne_eq,
      List.all_eq_true] at h
    simp only [not_balks_rejected, false_iff]
    rintro ⟨⟨hne, hd⟩, -⟩
    exact h.elim hne fun h => h hd
  · next h =>
    simp only [Bool.or_eq_true, List.isEmpty_iff, Bool.not_eq_true', not_or, Bool.not_eq_false,
      List.all_eq_true] at h
    rw [balks_mapError_number, Text.toNatWithin]
    split <;> simp_all

theorem decodeRows_cons_iff {path l : Text} {width line : Nat} {seen : List Nat} {ls : List Text} :
    (∃ out, decodeRows path width line seen (l :: ls) = .ok out) ↔ (fields l).length = width ∧
      ∃ id, decodeId path line ((fields l).headD []) = .ok id ∧ seen.elem id = false ∧
        ∃ out, decodeRows path width (line + 1) (id :: seen) ls = .ok out := by
  rw [decodeRows]
  split
  · next hw => simp [hw]
  · next hw =>
    simp only [Except.bind_eq_ok_iff, not_not.1 hw, true_and]
    constructor
    · rintro ⟨out, id, hid, h⟩
      split at h
      · cases h
      · next hs =>
        obtain ⟨rest, hrest, -⟩ := Except.bind_eq_ok_iff.1 h
        exact ⟨id, hid, by simpa using hs, rest, hrest⟩
    · rintro ⟨id, hid, hs, rest, hrest⟩
      exact ⟨_, id, hid, (if_neg (by simpa using hs)).trans
        (Except.bind_eq_ok_iff.2 ⟨rest, hrest, rfl⟩)⟩

theorem balks_decodeRows_cons_iff {path l : Text} {width line : Nat} {seen : List Nat}
    {ls : List Text} :
    Balks (decodeRows path width line seen (l :: ls)) ↔ OverlongId width l ∨
      (fields l).length = width ∧ ∃ id, decodeId path line ((fields l).headD []) = .ok id ∧
        seen.elem id = false ∧ Balks (decodeRows path width (line + 1) (id :: seen) ls) := by
  rw [decodeRows]
  split
  · next hw =>
    simp only [not_balks_rejected, hw, false_and, or_false, false_iff]
    exact fun h => hw h.count
  · next hw =>
    have hlong : Balks (decodeId path line ((fields l).headD [])) ↔ OverlongId width l := by
      rw [balks_decodeId_iff]
      exact ⟨fun h => ⟨not_not.1 hw, h.1, h.2⟩, fun h => ⟨h.digits, h.long⟩⟩
    rw [balks_bind, hlong]
    simp only [not_not.1 hw, true_and]
    refine or_congr_right (exists_congr fun id => and_congr_right fun _ => ?_)
    split
    · next hs => simp only [not_balks_rejected, hs, Bool.true_eq_false, false_and]
    · next hs =>
      rw [balks_bind_of_not fun _ => not_balks_pure _]
      simp only [Bool.eq_false_iff.2 hs, true_and]

/-- Decoding rows balks exactly if an id is too long behind lines that are decoded. -/
theorem balks_decodeRows_iff {path : Text} {width line : Nat} {seen : List Nat} {ls : List Text} :
    Balks (decodeRows path width line seen ls) ↔ ∃ front l back, ls = front ++ l :: back ∧
      (∃ out, decodeRows path width line seen front = .ok out) ∧ OverlongId width l := by
  induction ls generalizing line seen with
  | nil => simp [decodeRows]
  | cons l ls ih =>
    rw [balks_decodeRows_cons_iff]
    constructor
    · rintro (h | ⟨hw, id, hid, hs, h⟩)
      · exact ⟨[], l, ls, rfl, ⟨[], rfl⟩, h⟩
      · obtain ⟨front, m, back, rfl, hout, h⟩ := ih.1 h
        exact ⟨l :: front, m, back, rfl, decodeRows_cons_iff.2 ⟨hw, id, hid, hs, hout⟩, h⟩
    · rintro ⟨front, m, back, he, hout, h⟩
      cases front with
      | nil =>
        cases he
        exact .inl h
      | cons k front =>
        cases he
        obtain ⟨hw, id, hid, hs, hout⟩ := decodeRows_cons_iff.1 hout
        exact .inr ⟨hw, id, hid, hs, ih.2 ⟨front, m, back, rfl, hout, h⟩⟩

theorem exists_decodeRows_iff {path : Text} {width line : Nat} {ls : List Text} :
    (∃ out, decodeRows path width line [] ls = .ok out) ↔
      ∃ rows, List.Forall₂ (LineHolds width) ls rows ∧ (rows.map rowId).Nodup := by
  simp only [decodeRows_eq_ok_iff]
  constructor
  · rintro ⟨out, hf, hn, -⟩
    exact ⟨out.map (·.2), List.forall₂_map_right_iff.2 (hf.imp fun _ _ h => h.1),
      map_fst_eq hf ▸ hn⟩
  · rintro ⟨rows, hf, hn⟩
    refine ⟨rows.map fun row => (rowId row, row), ?_, ?_, by simp⟩
    · exact List.forall₂_map_right_iff.2 (hf.imp fun _ _ h => ⟨h, rfl⟩)
    · simpa [Function.comp_def] using hn

/-- Decoding a file balks exactly if reading its text stumbles. -/
theorem balks_decode_iff {name text path : Text} :
    Balks (decode name text path) ↔ StumblesReading text := by
  unfold decode StumblesReading
  split
  · next h => simp [h]
  · next h =>
    simp only [not_balks_rejected, h, false_iff]
    rintro ⟨header, columns, front, line, back, rows, he, hc, -⟩
    cases he
    cases hc
  · next header body _ h =>
    have hheader : ¬ Balks ((decodeHeader header).mapError
        fun f => (Rejection.malformedFile path f : Failure)) := by
      cases decodeHeader header <;> simp [Except.mapError]
    rw [balks_bind, h]
    simp only [hheader, false_or, Except.mapError_eq_ok_iff]
    constructor
    · rintro ⟨columns, hc, hb⟩
      rw [balks_bind_of_not fun _ => not_balks_pure _, balks_decodeRows_iff] at hb
      obtain ⟨front, line, back, rfl, hout, hl⟩ := hb
      obtain ⟨rows, hf, hn⟩ := exists_decodeRows_iff.1 hout
      exact ⟨header, columns, front, line, back, rows, rfl, hc, hf, hn, hl⟩
    · rintro ⟨_, columns, front, line, back, rows, he, hc, hf, hn, hl⟩
      cases he
      refine ⟨columns, hc, ?_⟩
      rw [balks_bind_of_not fun _ => not_balks_pure _, balks_decodeRows_iff]
      exact ⟨front, line, back, rfl, exists_decodeRows_iff.2 ⟨rows, hf, hn⟩, hl⟩

end Table

/-! ## Joins -/

namespace Join

variable {key : Value} {place : Nat} {rows left right : List Row}

/-- The cells that a row is compared by. -/
theorem balks_partners_iff (hkey : key.IsSpelled) (hrows : ∀ row ∈ rows, ∀ v ∈ row, v.IsSpelled) :
    Balks (partners key place rows) ↔
      ∃ row ∈ rows, key.Stumbles (row.getD place Value.null) := by
  rw [balks_through (partners key place)
    (g := fun row (yes : Bool) rest => if yes then row :: rest else rest) rfl (fun _ _ => rfl),
    firstBad_iff_exists fun _ _ => ok_or_balks_mapError_number _]
  refine exists_congr fun row => and_congr_right fun hrow => ?_
  exact Value.balks_equals_iff hkey (Value.isSpelled_getD (hrows row hrow) place)

theorem ok_or_balks_partners (key : Value) (place : Nat) (rows : List Row) :
    (∃ these, partners key place rows = .ok these) ∨ Balks (partners key place rows) :=
  ok_or_balks_through (partners key place)
    (g := fun row (yes : Bool) rest => if yes then row :: rest else rest) rfl (fun _ _ => rfl)
    fun _ _ => ok_or_balks_mapError_number _

theorem balks_pairs_iff {i j : Nat} (hleft : ∀ row ∈ left, ∀ v ∈ row, v.IsSpelled)
    (hright : ∀ row ∈ right, ∀ v ∈ row, v.IsSpelled) :
    Balks (pairs left i right j) ↔ ∃ l ∈ left, ∃ r ∈ right,
      (l.getD i Value.null).Stumbles (r.getD j Value.null) := by
  rw [balks_through (fun left => pairs left i right j)
    (g := fun (row : Row) (these rest : List Row) => these.map (row.tail ++ ·.tail) ++ rest) rfl
    (fun _ _ => rfl),
    firstBad_iff_exists fun _ _ => ok_or_balks_partners ..]
  refine exists_congr fun l => and_congr_right fun hl => ?_
  exact balks_partners_iff (Value.isSpelled_getD (hleft l hl) i) hright

/-- The two tables are joined on columns of theirs in which cells that are compared stumble. -/
def Stumbles (left right : Table) (leftColumn rightColumn : Text) : Prop :=
  ∃ i j, Name.find? left.columns leftColumn = some i ∧
    Name.find? right.columns rightColumn = some j ∧
    ∃ l ∈ left.rows, ∃ r ∈ right.rows, (l.getD i Value.null).Stumbles (r.getD j Value.null)

theorem balks_join_iff {left right : Table} {leftColumn rightColumn : Text} (hl : left.Sound)
    (hr : right.Sound) : Balks (join left right leftColumn rightColumn) ↔
      Stumbles left right leftColumn rightColumn := by
  have hpairs (i j : Nat) := balks_pairs_iff (i := i) (j := j)
    (fun row h => (hl.rows row h).isSpelled) fun row h => (hr.rows row h).isSpelled
  rw [join, balks_bind]
  simp only [Table.not_balks_index, false_or, balks_bind, not_balks_pure, and_false, exists_false,
    or_false, Table.index_eq_ok_iff, hpairs, Stumbles]
  constructor
  · rintro ⟨i, hi, j, hj, h⟩
    exact ⟨i, j, hi, hj, h⟩
  · rintro ⟨i, j, hi, hj, h⟩
    exact ⟨i, hi, j, hj, h⟩

end Join

end Tabular
