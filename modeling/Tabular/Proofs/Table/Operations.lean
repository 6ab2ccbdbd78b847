import Tabular.Proofs.Table.Sound

/-!
# Operations on tables

What each operation makes of a table when it succeeds, and that it keeps the table sound.
-/

namespace Tabular.Table

/-! ## Rows -/

theorem verdicts_length {p : Predicate} {rows : List Row} {yes : List Bool}
    (h : verdicts p rows = .ok yes) : yes.length = rows.length := by
  induction rows generalizing yes with
  | nil => simp only [verdicts, Except.ok.injEq] at h; subst h; rfl
  | cons row rows ih =>
    simp only [verdicts, Except.bind_eq_ok_iff, Except.pure_eq_ok_iff] at h
    obtain ⟨_, -, rest, hr, rfl⟩ := h
    simp [ih hr]

theorem accepted_sublist {p : Predicate} {rows keep : List Row} (h : accepted p rows = .ok keep) :
    keep.Sublist rows := by
  induction rows generalizing keep with
  | nil => simp only [accepted, Except.ok.injEq] at h; subst h; exact .slnil
  | cons row rows ih =>
    simp only [accepted, Except.bind_eq_ok_iff, Except.pure_eq_ok_iff] at h
    obtain ⟨yes, -, rest, hr, rfl⟩ := h
    cases yes with
    | true => exact (ih hr).cons_cons row
    | false => exact (ih hr).cons row

/-- Cells that an update may write: stored ones, none of them over the id. -/
def Writable (cells : List (Nat × Value)) : Prop := ∀ c ∈ cells, 0 < c.1 ∧ c.2.IsStored

theorem targets_writable {t : Table} (ht : Name.isId (t.columns.headD []))
    {before cells : List (Nat × Value)} {assignments : List (Text × Value)} (hb : Writable before)
    (h : t.targets before assignments = .ok cells) : Writable cells := by
  induction assignments generalizing before with
  | nil => simp only [targets, Except.ok.injEq] at h; subst h; exact hb
  | cons a rest ih =>
    obtain ⟨column, v⟩ := a
    rw [targets] at h
    split at h
    · cases h
    · next hid =>
      obtain ⟨i, hi, h⟩ := Except.bind_eq_ok_iff.1 h
      split at h
      · cases h
      · obtain ⟨w, hw, h⟩ := Except.bind_eq_ok_iff.1 h
        refine ih ?_ h
        intro c hc
        rcases List.mem_append.1 hc with hc | hc
        · exact hb c hc
        · rw [List.mem_singleton.1 hc]
          exact ⟨index_pos ht (by simpa using hid) hi, isStored_of_stored hw⟩

/-- Changing cells other than the id keeps a row sound, with its id. -/
theorem change_sound {width : Nat} {cells : List (Nat × Value)} {row : Row} (hc : Writable cells)
    (h : SoundRow width row) :
    SoundRow width (change cells row) ∧ (change cells row).head? = row.head? := by
  induction cells generalizing row with
  | nil => exact ⟨h, rfl⟩
  | cons c cells ih =>
    obtain ⟨hi, hv⟩ := hc c (by simp)
    have hh : (row.set c.1 c.2).head? = row.head? := by
      cases row with
      | nil => rfl
      | cons v row => obtain ⟨n, hn⟩ := Nat.exists_eq_succ_of_ne_zero (by omega : c.1 ≠ 0); simp [hn]
    have hs : SoundRow width (row.set c.1 c.2) := by
      apply h.of_head? hh (by rw [List.length_set, h.width_eq])
      intro v hm
      rcases List.mem_or_eq_of_mem_set hm with hm | rfl
      · exact h.cells v hm
      · exact hv
    obtain ⟨hs', hh'⟩ := ih (fun d hd => hc d (by simp [hd])) hs
    exact ⟨hs', hh'.trans hh⟩

/-- The rows of an update, one for each old row in the same place. -/
theorem zipWith_change {width : Nat} {cells : List (Nat × Value)} (hc : Writable cells)
    {rows : List Row} {yes : List Bool} (hl : yes.length = rows.length)
    (h : ∀ row ∈ rows, SoundRow width row) :
    List.Forall₂ (fun row row' => SoundRow width row' ∧ row'.head? = row.head?) rows
      (List.zipWith (fun row yes => if yes then change cells row else row) rows yes) := by
  induction rows generalizing yes with
  | nil => simp
  | cons row rows ih =>
    obtain ⟨y, yes, rfl⟩ := List.exists_cons_of_length_eq_add_one hl
    have hr := h row (by simp)
    refine .cons ?_ (ih (by simpa using hl) fun r hm => h r (by simp [hm]))
    cases y with
    | true => exact change_sound hc hr
    | false => exact ⟨hr, rfl⟩

theorem rowId_eq_of_head? {row row' : Row} (h : row'.head? = row.head?) : rowId row' = rowId row := by
  simp [rowId, List.headD_eq_head?_getD, h]

theorem map_rowId_eq {rows rows' : List Row}
    (h : List.Forall₂ (fun row row' => row'.head? = row.head?) rows rows') :
    rows'.map rowId = rows.map rowId := by
  induction h with
  | nil => rfl
  | cons hr _ ih => simp [rowId_eq_of_head? hr, ih]

/-- Rows in the place of others with the same ids, in a table of any shape. -/
theorem Sound.with_rows {t new : Table} (ht : t.Sound) (hf : Name.isId (new.columns.headD []))
    (ho : ∀ c ∈ new.columns.tail, Name.isId c = false) (hd : (new.columns.map Text.lower).Nodup)
    (hn : ∀ c ∈ new.columns, c ≠ [] ∧ c.fitsField) (hnext : new.nextId = t.nextId)
    (hr : List.Forall₂ (fun row row' => row'.head? = row.head?) t.rows new.rows)
    (hs : ∀ row ∈ new.rows, SoundRow new.columns.length row) : new.Sound where
  id_first := hf
  id_once := ho
  columns_distinct := hd
  columns_fit := hn
  rows := hs
  ids_distinct := by rw [map_rowId_eq hr]; exact ht.ids_distinct
  ids_below := by
    intro row hm
    have hid : rowId row ∈ t.rows.map rowId := by
      rw [← map_rowId_eq hr]; exact List.mem_map_of_mem hm
    obtain ⟨old, hold, he⟩ := List.mem_map.1 hid
    rw [← he, hnext]
    exact ht.ids_below old hold
  next_pos := by rw [hnext]; exact ht.next_pos

/-! ## What the operations do -/

theorem insert_eq_ok {t new : Table} {values : List Value} {row : Row}
    (h : t.insert values = .ok (row, new)) :
    ∃ cells, cells.length = t.columns.length - 1 ∧ (∀ v ∈ cells, v.IsStored) ∧
      (Text.ofNat t.nextId).length ≤ Text.digitLimit ∧
      row = ⟨.number, Text.ofNat t.nextId⟩ :: cells ∧
      new = { t with rows := t.rows ++ [row], nextId := t.nextId + 1 } := by
  unfold insert at h
  split at h
  · cases h
  · next hl =>
    simp only [Except.bind_eq_ok_iff, Except.mapError_eq_ok_iff, Except.pure_eq_ok_iff,
      Value.ofNat_eq_ok_iff, Prod.mk.injEq] at h
    obtain ⟨cells, hc, id, ⟨rfl, hshort⟩, rfl, rfl⟩ := h
    obtain ⟨hlen, hst⟩ := storedAll_eq_ok hc
    exact ⟨cells, by omega, hst, hshort, rfl, rfl⟩

theorem insert_sound {t new : Table} {values : List Value} {row : Row} (ht : t.Sound)
    (h : t.insert values = .ok (row, new)) : new.Sound := by
  obtain ⟨cells, hlen, hst, hshort, rfl, rfl⟩ := insert_eq_ok h
  have hw : cells.length + 1 = t.columns.length := by have := ht.columns_pos; omega
  refine { ht with rows := ?_, ids_distinct := ?_, ids_below := ?_, next_pos := Nat.succ_pos _ }
  · intro row hm
    rcases List.mem_append.1 hm with hm | hm
    · exact ht.rows row hm
    · rw [List.mem_singleton.1 hm]
      exact hw ▸ soundRow_cons hshort hst
  · simp only [List.map_append, List.map_cons, List.map_nil, rowId_cons, Text.toNat_ofNat]
    refine List.nodup_append.2 ⟨ht.ids_distinct, by simp, ?_⟩
    intro m hm n hn
    obtain ⟨old, hold, rfl⟩ := List.mem_map.1 hm
    have := ht.ids_below old hold
    simp only [List.mem_singleton] at hn
    omega
  · intro row hm
    rcases List.mem_append.1 hm with hm | hm
    · have := ht.ids_below row hm
      simp only
      omega
    · rw [List.mem_singleton.1 hm, rowId_cons, Text.toNat_ofNat]
      exact Nat.lt_succ_self _

theorem update_eq_ok {t new : Table} {condition : Option Condition}
    {assignments : List (Text × Value)} {n : Nat}
    (h : t.update condition assignments = .ok (n, new)) :
    ∃ cells yes, t.targets [] assignments = .ok cells ∧ yes.length = t.rows.length ∧
      n = yes.count true ∧ new = { t with
        rows := List.zipWith (fun row yes => if yes then change cells row else row) t.rows yes } := by
  simp only [update, Except.bind_eq_ok_iff, Except.pure_eq_ok_iff, Prod.mk.injEq] at h
  obtain ⟨cells, hc, p, -, yes, hy, rfl, rfl⟩ := h
  exact ⟨cells, yes, hc, verdicts_length hy, rfl, rfl⟩

theorem update_rows {t new : Table} {condition : Option Condition}
    {assignments : List (Text × Value)} {n : Nat} (ht : t.Sound)
    (h : t.update condition assignments = .ok (n, new)) :
    new.columns = t.columns ∧ new.nextId = t.nextId ∧ new.name = t.name ∧
      List.Forall₂ (fun row row' => SoundRow t.columns.length row' ∧ row'.head? = row.head?)
        t.rows new.rows := by
  obtain ⟨cells, yes, hc, hl, -, rfl⟩ := update_eq_ok h
  have hw := targets_writable ht.id_first (by intro c hc; cases hc) hc
  exact ⟨rfl, rfl, rfl, zipWith_change hw hl ht.rows⟩

theorem update_sound {t new : Table} {condition : Option Condition}
    {assignments : List (Text × Value)} {n : Nat} (ht : t.Sound)
    (h : t.update condition assignments = .ok (n, new)) : new.Sound := by
  obtain ⟨hc, hn, -, hr⟩ := update_rows ht h
  refine ht.with_rows (hc ▸ ht.id_first) (hc ▸ ht.id_once) (hc ▸ ht.columns_distinct)
    (hc ▸ ht.columns_fit) hn (hr.imp fun _ _ h => h.2) ?_
  intro row hm
  obtain ⟨old, -, hs, -⟩ := exists_of_mem_right hr hm
  exact hc ▸ hs

theorem delete_eq_ok {t new : Table} {condition : Option Condition} {n : Nat}
    (h : t.delete condition = .ok (n, new)) :
    ∃ keep, keep.Sublist t.rows ∧ n = t.rows.length - keep.length ∧ new = { t with rows := keep } := by
  simp only [delete, Except.bind_eq_ok_iff, Except.pure_eq_ok_iff, Prod.mk.injEq] at h
  obtain ⟨p, -, keep, hk, rfl, rfl⟩ := h
  exact ⟨keep, accepted_sublist hk, rfl, rfl⟩

theorem delete_sound {t new : Table} {condition : Option Condition} {n : Nat} (ht : t.Sound)
    (h : t.delete condition = .ok (n, new)) : new.Sound := by
  obtain ⟨keep, hk, -, rfl⟩ := delete_eq_ok h
  exact { ht with
    rows := fun row hm => ht.rows row (hk.subset hm)
    ids_distinct := (hk.map rowId).nodup ht.ids_distinct
    ids_below := fun row hm => ht.ids_below row (hk.subset hm) }

theorem addColumn_eq_ok {t new : Table} {column : Text} (h : t.addColumn column = .ok new) :
    NewColumn t.columns column ∧ new = { t with
      columns := t.columns ++ [column], rows := t.rows.map (· ++ [Value.null]) } := by
  simp only [addColumn, Except.bind_eq_ok_iff, Except.mapError_eq_ok_iff,
    Except.pure_eq_ok_iff] at h
  obtain ⟨_, hc, rfl⟩ := h
  exact ⟨newColumn_of_checkNew hc, rfl⟩

theorem addColumn_rows {t new : Table} {column : Text} (ht : t.Sound)
    (h : t.addColumn column = .ok new) :
    List.Forall₂ (fun row row' => row'.head? = row.head?) t.rows new.rows := by
  obtain ⟨-, rfl⟩ := addColumn_eq_ok h
  refine List.forall₂_map_right_iff.2 (List.forall₂_same.2 ?_)
  intro row hm
  obtain ⟨cells, he⟩ := (ht.rows row hm).eq_cons
  rw [he]
  rfl

theorem addColumn_sound {t new : Table} {column : Text} (ht : t.Sound)
    (h : t.addColumn column = .ok new) : new.Sound := by
  have hr := addColumn_rows ht h
  obtain ⟨hc, rfl⟩ := addColumn_eq_ok h
  obtain ⟨c, cs, hcs, hid⟩ := ht.columns_eq_cons
  refine ht.with_rows ?_ ?_ ?_ ?_ rfl hr ?_
  · simpa [hcs] using hid
  · intro d hd
    simp only [hcs, List.cons_append, List.tail_cons, List.mem_append, List.mem_singleton] at hd
    rcases hd with hd | rfl
    · exact ht.id_once d (by simpa [hcs] using hd)
    · exact hc.notId
  · simp only [List.map_append, List.map_cons, List.map_nil]
    refine List.nodup_append.2 ⟨ht.columns_distinct, by simp, ?_⟩
    rintro a ha b hb rfl
    exact hc.fresh (List.mem_singleton.1 hb ▸ ha)
  · intro d hd
    rcases List.mem_append.1 hd with hd | hd
    · exact ht.columns_fit d hd
    · rw [List.mem_singleton.1 hd]
      exact fitsField_of_isPlain hc.plain
  · intro row hm
    obtain ⟨old, hold, rfl⟩ := List.mem_map.1 hm
    have hs := ht.rows old hold
    obtain ⟨cells, he⟩ := hs.eq_cons
    apply hs.of_head? (by rw [he]; rfl) (by simp [hs.width_eq])
    intro v hv
    rcases List.mem_append.1 hv with hv | hv
    · exact hs.cells v hv
    · rw [List.mem_singleton.1 hv]
      exact Value.isStored_null

theorem dropColumn_eq_ok {t new : Table} {column : Text} (h : t.dropColumn column = .ok new) :
    Name.isId column = false ∧ ∃ i, t.index column = .ok i ∧ new = { t with
      columns := t.columns.eraseIdx i, rows := t.rows.map (·.eraseIdx i) } := by
  unfold dropColumn at h
  split at h
  · cases h
  · next hid =>
    simp only [Except.bind_eq_ok_iff, Except.pure_eq_ok_iff] at h
    obtain ⟨i, hi, rfl⟩ := h
    exact ⟨by simpa using hid, i, hi, rfl⟩

theorem head?_eraseIdx {α : Type} {l : List α} {i : Nat} (hi : 0 < i) :
    (l.eraseIdx i).head? = l.head? := by
  obtain ⟨n, rfl⟩ := Nat.exists_eq_succ_of_ne_zero (by omega : i ≠ 0)
  cases l <;> rfl

theorem dropColumn_rows {t new : Table} {column : Text} (ht : t.Sound)
    (h : t.dropColumn column = .ok new) :
    List.Forall₂ (fun row row' => row'.head? = row.head?) t.rows new.rows := by
  obtain ⟨hid, i, hi, rfl⟩ := dropColumn_eq_ok h
  have hpos := index_pos ht.id_first hid hi
  exact List.forall₂_map_right_iff.2 (List.forall₂_same.2 fun row _ => head?_eraseIdx hpos)

theorem dropColumn_sound {t new : Table} {column : Text} (ht : t.Sound)
    (h : t.dropColumn column = .ok new) : new.Sound := by
  have hr := dropColumn_rows ht h
  obtain ⟨hid, i, hi, rfl⟩ := dropColumn_eq_ok h
  have hpos := index_pos ht.id_first hid hi
  have hlt := Name.find?_lt (index_eq_ok_iff.1 hi)
  obtain ⟨c, cs, hcs, hc⟩ := ht.columns_eq_cons
  obtain ⟨n, rfl⟩ := Nat.exists_eq_succ_of_ne_zero (by omega : i ≠ 0)
  refine ht.with_rows ?_ ?_ ?_ ?_ rfl hr ?_
  · simpa [hcs] using hc
  · intro d hd
    simp only [hcs, List.eraseIdx_cons_succ, List.tail_cons] at hd
    exact ht.id_once d (by simpa [hcs] using List.mem_of_mem_eraseIdx hd)
  · exact ((List.eraseIdx_sublist _ _).map Text.lower).nodup ht.columns_distinct
  · intro d hd
    exact ht.columns_fit d (List.mem_of_mem_eraseIdx hd)
  · intro row hm
    obtain ⟨old, hold, rfl⟩ := List.mem_map.1 hm
    have hs := ht.rows old hold
    refine hs.of_head? (head?_eraseIdx hpos) ?_ fun v hv => hs.cells v (List.mem_of_mem_eraseIdx hv)
    have hw := hs.width_eq
    rw [List.length_eraseIdx_of_lt (by omega), List.length_eraseIdx_of_lt hlt, hw]

end Tabular.Table
