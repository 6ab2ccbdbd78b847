import Mathlib.Data.List.Forall2
import Tabular.Proofs.Except
import Tabular.Proofs.Text.Decimal
import Tabular.Table.File

/-!
# Sound tables

What holds of every table that the program makes: the shape of its header and of its rows, ids in
canonical form that are distinct and below the next one, and cells that read back from their text.
-/

namespace Tabular

/-- Does the text stand in one field of a file? -/
def Text.fitsField (t : Text) : Bool := t.all fun c => c != '\t' && c != '\r' && c != '\n'

theorem exists_of_mem_right {α β : Type} {R : α → β → Prop} {as : List α} {bs : List β}
    (h : List.Forall₂ R as bs) {b : β} (hb : b ∈ bs) : ∃ a ∈ as, R a b := by
  induction h with
  | nil => cases hb
  | @cons a _ _ _ hr _ ih =>
    rcases List.mem_cons.1 hb with rfl | hb
    · exact ⟨a, by simp, hr⟩
    · obtain ⟨c, hc, h⟩ := ih hb
      exact ⟨c, by simp [hc], h⟩

theorem exists_of_mem_left {α β : Type} {R : α → β → Prop} {as : List α} {bs : List β}
    (h : List.Forall₂ R as bs) {a : α} (ha : a ∈ as) : ∃ b ∈ bs, R a b :=
  exists_of_mem_right (R := fun b a => R a b) h.flip ha

namespace Value

/-- A value that a file gives back as it is. -/
structure IsStored (v : Value) : Prop where
  fits : v.text.fitsField
  typed : ofField v.text = v

instance (v : Value) : Decidable v.IsStored :=
  decidable_of_iff (v.text.fitsField ∧ ofField v.text = v) ⟨fun h => ⟨h.1, h.2⟩, fun h => ⟨h.1, h.2⟩⟩

theorem isStored_ofField {t : Text} (h : t.fitsField) : (ofField t).IsStored :=
  ⟨by simpa using h, by simp⟩

theorem isStored_null : null.IsStored := by decide

end Value

namespace Table

/-- A row of a given width that begins with its id. -/
structure SoundRow (width : Nat) (row : Row) : Prop where
  width_eq : row.length = width
  id_eq : row.head? = some ⟨.number, Text.ofNat (rowId row)⟩
  id_short : (Text.ofNat (rowId row)).length ≤ Text.digitLimit
  cells : ∀ v ∈ row, v.IsStored

/-- The id column comes first and under no other name, no two columns agree in small letters, every
row is sound, and the ids are distinct and below the next one. -/
structure Sound (t : Table) : Prop where
  id_first : Name.isId (t.columns.headD [])
  id_once : ∀ c ∈ t.columns.tail, Name.isId c = false
  columns_distinct : (t.columns.map Text.lower).Nodup
  columns_fit : ∀ c ∈ t.columns, c ≠ [] ∧ c.fitsField
  rows : ∀ row ∈ t.rows, SoundRow t.columns.length row
  ids_distinct : (t.rows.map rowId).Nodup
  ids_below : ∀ row ∈ t.rows, rowId row < t.nextId
  next_pos : 0 < t.nextId

theorem fitsField_ofNat (n : Nat) : (Text.ofNat n).fitsField := by
  simp only [Text.fitsField, List.all_eq_true, Bool.and_eq_true, bne_iff_ne]
  intro c hc
  have hd := Text.isAsciiDigit_of_mem_ofNat hc
  refine ⟨⟨?_, ?_⟩, ?_⟩ <;> rintro rfl <;> exact absurd hd (by decide)

theorem isStored_id (n : Nat) : (⟨.number, Text.ofNat n⟩ : Value).IsStored :=
  ⟨fitsField_ofNat n, Value.ofField_ofNat n⟩

@[simp] theorem rowId_cons (v : Value) (cells : Row) : rowId (v :: cells) = Text.toNat v.text := rfl

/-- A new row is its id before stored cells. -/
theorem soundRow_cons {n : Nat} {cells : Row} (hn : (Text.ofNat n).length ≤ Text.digitLimit)
    (hc : ∀ v ∈ cells, v.IsStored) : SoundRow (cells.length + 1) (⟨.number, Text.ofNat n⟩ :: cells) where
  width_eq := rfl
  id_eq := by simp
  id_short := by simpa using hn
  cells := by
    intro v hv
    rcases List.mem_cons.1 hv with rfl | hv
    · exact isStored_id n
    · exact hc v hv

theorem SoundRow.eq_cons {width : Nat} {row : Row} (h : SoundRow width row) :
    ∃ cells, row = ⟨.number, Text.ofNat (rowId row)⟩ :: cells := List.head?_eq_some_iff.1 h.id_eq

/-- A row that keeps its first cell keeps its id. -/
theorem SoundRow.of_head? {width width' : Nat} {row row' : Row} (h : SoundRow width row)
    (hh : row'.head? = row.head?) (hw : row'.length = width') (hc : ∀ v ∈ row', v.IsStored) :
    SoundRow width' row' := by
  have hid : rowId row' = rowId row := by simp [rowId, List.headD_eq_head?_getD, hh]
  exact ⟨hw, by rw [hh, hid, h.id_eq], by rw [hid]; exact h.id_short, hc⟩

theorem Sound.columns_eq_cons {t : Table} (h : t.Sound) :
    ∃ c cs, t.columns = c :: cs ∧ Name.isId c := by
  cases hc : t.columns with
  | nil => have := h.id_first; rw [hc] at this; exact absurd this (by decide)
  | cons c cs => exact ⟨c, cs, rfl, by simpa [hc] using h.id_first⟩

theorem Sound.columns_pos {t : Table} (h : t.Sound) : 0 < t.columns.length := by
  obtain ⟨c, cs, hc, -⟩ := h.columns_eq_cons
  simp [hc]

/-! ## Stored values -/

theorem stored_eq_ok_iff {v w : Value} :
    stored v = .ok w ↔ v.text.fitsField ∧ w = Value.ofField v.text := by
  have hb : (v.text.any fun c => c == '\t' || c == '\r' || c == '\n') = !v.text.fitsField := by
    simp [Text.fitsField, List.any_eq_not_all_not, bne]
  unfold stored
  rw [hb]
  cases v.text.fitsField <;> simp [eq_comm]

theorem isStored_of_stored {v w : Value} (h : stored v = .ok w) : w.IsStored := by
  obtain ⟨hf, rfl⟩ := stored_eq_ok_iff.1 h
  exact Value.isStored_ofField hf

theorem storedAll_eq_ok {vs ws : List Value} (h : storedAll vs = .ok ws) :
    ws.length = vs.length ∧ ∀ w ∈ ws, w.IsStored := by
  induction vs generalizing ws with
  | nil => simp only [storedAll, Except.ok.injEq] at h; subst h; simp
  | cons v vs ih =>
    simp only [storedAll, Except.bind_eq_ok_iff, Except.pure_eq_ok_iff] at h
    obtain ⟨w, hw, ws', hws, rfl⟩ := h
    obtain ⟨hl, hs⟩ := ih hws
    refine ⟨by simp [hl], ?_⟩
    intro u hu
    rcases List.mem_cons.1 hu with rfl | hu
    · exact isStored_of_stored hw
    · exact hs u hu

/-! ## Columns -/

theorem index_eq_ok_iff {t : Table} {column : Text} {i : Nat} :
    t.index column = .ok i ↔ Name.find? t.columns column = some i := by
  rw [index, Except.mapError_eq_ok_iff, Name.resolve_eq_ok_iff]

/-- Only a name of the id column finds the first column. -/
theorem index_pos {t : Table} (ht : Name.isId (t.columns.headD [])) {column : Text}
    (hc : Name.isId column = false) {i : Nat} (h : t.index column = .ok i) : 0 < i := by
  rcases Nat.eq_zero_or_pos i with rfl | hi
  · obtain ⟨hlt, heq, -⟩ := List.findIdx?_eq_some_iff_getElem.1 (index_eq_ok_iff.1 h)
    have hid : Name.isId column = Name.isId t.columns[0] := by
      simp only [Name.isId, beq_iff_eq.1 heq]
    cases hcs : t.columns with
    | nil => simp [hcs] at hlt
    | cons c cs => simp_all
  · exact hi

theorem fitsField_of_isPlain {c : Text} (h : Name.isPlain c) : c ≠ [] ∧ c.fitsField := by
  simp only [Name.isPlain, Bool.and_eq_true, Bool.not_eq_true', List.isEmpty_eq_false_iff] at h
  refine ⟨h.1, ?_⟩
  simp only [Text.fitsField, List.all_eq_true, Bool.and_eq_true, bne_iff_ne]
  intro d hd
  have hw := List.all_eq_true.1 h.2 d hd
  refine ⟨⟨?_, ?_⟩, ?_⟩ <;> rintro rfl <;> exact absurd hw (by decide)

/-- A name that passes as a new column. -/
structure NewColumn (columns : List Text) (name : Text) : Prop where
  plain : Name.isPlain name
  notId : Name.isId name = false
  fresh : Text.lower name ∉ columns.map Text.lower

theorem newColumn_of_checkNew {action : ColumnAction} {columns : List Text} {name : Text}
    (h : checkNew action columns name = .ok ()) : NewColumn columns name := by
  simp only [checkNew, Except.bind_eq_ok_iff, Name.validate_eq_ok_iff] at h
  obtain ⟨_, ⟨-, hp, -⟩, h⟩ := h
  split at h
  · cases h
  · next hid =>
    split at h
    · cases h
    · next hf =>
      have hn : Name.find? columns name = none := by simpa using hf
      rw [Name.find?, List.findIdx?_eq_none_iff] at hn
      refine ⟨hp, by simpa using hid, ?_⟩
      simpa using hn

end Table

end Tabular
