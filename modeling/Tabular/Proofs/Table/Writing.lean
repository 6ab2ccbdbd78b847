import Tabular.Proofs.Table.Reading

/-!
# Writing table files

The text of a sound table holds the table again. A row written at the end of a file is one more row
if the file ends with a line feed; otherwise the file holds no more rows than before, if it holds
anything at all.
-/

namespace Tabular.Table

/-- A row as a line, without the line feed. -/
def rowLine (row : Row) : Text := Text.join ['\t'] (row.map (·.text))

theorem encodeRow_eq (row : Row) : encodeRow row = rowLine row ++ ['\n'] := rfl

theorem encode_eq_flatMap (t : Table) :
    encode t = (Text.join ['\t'] t.columns :: t.rows.map rowLine).flatMap (· ++ ['\n']) := by
  simp only [encode, List.flatMap_cons, List.flatMap_map, List.append_assoc]
  rfl

theorem not_mem_join {ts : List Text} (h : ∀ t ∈ ts, t.fitsField) {c : Char}
    (hc : c = '\r' ∨ c = '\n') : c ∉ Text.join ['\t'] ts := by
  intro hm
  rcases Text.mem_join hm with rfl | ⟨t, ht, hm⟩
  · rcases hc with hc | hc <;> cases hc
  · have := fitsField_iff.1 (h t ht) c hm
    rcases hc with rfl | rfl
    · exact this.2.1 rfl
    · exact this.2.2 rfl

theorem SoundRow.texts_fit {width : Nat} {row : Row} (h : SoundRow width row) :
    ∀ t ∈ row.map (·.text), t.fitsField := by
  intro t ht
  obtain ⟨v, hv, rfl⟩ := List.mem_map.1 ht
  exact (h.cells v hv).fits

/-- Only carriage returns at its end are taken off a line. -/
theorem fields_of_getLast?_ne {line : Text} (h : line.getLast? ≠ some '\r') :
    fields line = Text.pieces '\t' line := by
  have hd : line.reverse.dropWhile (· == '\r') = line.reverse := by
    rw [← List.head?_reverse] at h
    cases hr : line.reverse with
    | nil => rfl
    | cons c cs =>
      have hne : c ≠ '\r' := by simpa [hr] using h
      simp [hne]
  rw [fields, hd, List.reverse_reverse]

theorem fields_eq_pieces {line : Text} (h : '\r' ∉ line) : fields line = Text.pieces '\t' line :=
  fields_of_getLast?_ne fun hl => h (List.mem_of_getLast? hl)

/-- The line of a sound row holds the row. -/
theorem SoundRow.lineHolds {width : Nat} {row : Row} (h : SoundRow width row) :
    LineHolds width (rowLine row) row := by
  obtain ⟨cells, he⟩ := h.eq_cons
  have htab : ∀ t ∈ row.map (·.text), '\t' ∉ t := fun t ht hm =>
    (fitsField_iff.1 (h.texts_fit t ht) '\t' hm).1 rfl
  have hf : fields (rowLine row) = row.map (·.text) := by
    have hne : row.map (·.text) ≠ [] := by rw [he]; simp
    have hcr : '\r' ∉ rowLine row := not_mem_join h.texts_fit (.inl rfl)
    exact (fields_eq_pieces hcr).trans (Text.pieces_join hne htab)
  have hhead : (fields (rowLine row)).headD [] = Text.ofNat (rowId row) := by rw [hf, he]; simp
  refine ⟨?_, ?_, by rw [hf, List.length_map, h.width_eq], ?_⟩
  · rw [hhead]
    exact ⟨Text.ofNat_ne_nil _, fun _ => Text.isAsciiDigit_of_mem_ofNat⟩
  · rw [hhead]
    exact h.id_short
  · have hcells : ∀ v ∈ cells, Value.ofField v.text = v := fun v hv =>
      (h.cells v (by rw [he]; simp [hv])).typed
    have hmap : cells.map (fun v => Value.ofField v.text) = cells := by
      simpa using List.map_congr_left hcells
    rw [hhead, Text.toNat_ofNat, hf]
    conv => lhs; rw [he]
    congr 1
    rw [he, List.map_cons, List.tail_cons, List.map_map]
    exact hmap.symm

theorem lines_encode {t : Table} (ht : t.Sound) :
    lines t.encode = Text.join ['\t'] t.columns :: t.rows.map rowLine := by
  rw [encode_eq_flatMap]
  apply lines_flatMap
  intro l hl
  rcases List.mem_cons.1 hl with rfl | hl
  · exact not_mem_join (fun c hc => (ht.columns_fit c hc).2) (.inr rfl)
  · obtain ⟨row, hrow, rfl⟩ := List.mem_map.1 hl
    exact not_mem_join (ht.rows row hrow).texts_fit (.inr rfl)

/-- The text of a sound table holds its columns and rows. -/
theorem holds_encode {t : Table} (ht : t.Sound) : Holds t.encode t.columns t.rows := by
  refine ⟨⟨Text.join ['\t'] t.columns, by rw [lines_encode ht]; rfl, ?_⟩, ?_, ht.ids_distinct⟩
  · have htab : ∀ c ∈ t.columns, '\t' ∉ c := fun c hc hm =>
      (fitsField_iff.1 (ht.columns_fit c hc).2 '\t' hm).1 rfl
    have hne : t.columns ≠ [] := List.length_pos_iff.1 ht.columns_pos
    exact decodeHeader_eq_ok_iff.2 ⟨(Text.pieces_join hne htab).symm, ht.id_first,
      fun c hc => (ht.columns_fit c hc).1, ht.columns_distinct⟩
  · rw [lines_encode ht, List.tail_cons]
    exact List.forall₂_map_left_iff.2 (List.forall₂_same.2 fun row hrow => (ht.rows row hrow).lineHolds)

/-- A sound table comes back from its text under any name, but for a next id that is as small as
its rows allow. -/
theorem decode_encode {t : Table} (ht : t.Sound) (name path : Text) :
    decode name t.encode path = .ok { t with name := name, nextId := followingId t.rows } :=
  decode_eq_ok_iff.2 ⟨holds_encode ht, rfl, rfl⟩

/-- No carriage return is in the text of a sound table. -/
theorem not_mem_encode {t : Table} (ht : t.Sound) : '\r' ∉ t.encode := by
  rw [encode_eq_flatMap]
  intro hm
  obtain ⟨l, hl, hm⟩ := List.mem_flatMap.1 hm
  rcases List.mem_append.1 hm with hm | hm
  · rcases List.mem_cons.1 hl with rfl | hl
    · exact not_mem_join (fun c hc => (ht.columns_fit c hc).2) (.inl rfl) hm
    · obtain ⟨row, hrow, rfl⟩ := List.mem_map.1 hl
      exact not_mem_join (ht.rows row hrow).texts_fit (.inl rfl) hm
  · cases List.mem_singleton.1 hm

/-- Every line of a table's text ends with a line feed. -/
theorem getLast?_encode (t : Table) : t.encode.getLast? = some '\n' := by
  have hl : ∀ ls : List Text, ls ≠ [] → (ls.flatMap (· ++ ['\n'])).getLast? = some '\n' := by
    intro ls hne
    rw [← List.dropLast_concat_getLast hne]
    simp [List.flatMap_append]
  rw [encode_eq_flatMap]
  exact hl _ (by simp)

theorem SoundRow.newline_not_mem {width : Nat} {row : Row} (h : SoundRow width row) :
    '\n' ∉ rowLine row := not_mem_join h.texts_fit (.inr rfl)

/-- A row after a line feed is one more row. -/
theorem Holds.append_row {text : Text} {columns : List Text} {rows : List Row} {row : Row}
    (h : Holds text columns rows) (ht : text.getLast? = some '\n')
    (hr : SoundRow columns.length row) (hid : rowId row ∉ rows.map rowId) :
    Holds (text ++ encodeRow row) columns (rows ++ [row]) := by
  have hl : lines (text ++ encodeRow row) = lines text ++ [rowLine row] :=
    lines_append_line ht hr.newline_not_mem
  obtain ⟨line, hline, hc⟩ := h.header
  refine ⟨⟨line, by rw [hl, List.head?_append, hline]; rfl, hc⟩, ?_, ?_⟩
  · rw [hl, List.tail_append_of_ne_nil (by rintro he; simp [he] at hline)]
    exact List.rel_append h.body (.cons hr.lineHolds .nil)
  · rw [List.map_append, List.nodup_append]
    refine ⟨h.ids_distinct, by simp, ?_⟩
    rintro m hm n hn rfl
    rw [List.map_cons, List.map_nil, List.mem_singleton] at hn
    exact hid (hn ▸ hm)

theorem Holds.length_rows {text : Text} {columns : List Text} {rows : List Row}
    (h : Holds text columns rows) : (lines text).length = rows.length + 1 := by
  obtain ⟨line, hl, -⟩ := h.header
  obtain ⟨body, hb⟩ := List.head?_eq_some_iff.1 hl
  have := h.body.length_eq
  simpa [hb] using this

/-- A row after anything but a line feed is no more row than there was. -/
theorem Holds.length_append_row {text : Text} {columns columns' : List Text} {rows rows' : List Row}
    {row : Row} (h : Holds text columns rows) (ht : text.getLast? ≠ some '\n')
    (hr : '\n' ∉ rowLine row) (h' : Holds (text ++ encodeRow row) columns' rows') :
    rows'.length = rows.length := by
  have hne : text ≠ [] := by rintro rfl; obtain ⟨_, hl, -⟩ := h.header; simp at hl
  have hl := length_lines_append_line hne ht hr
  rw [← encodeRow_eq, h'.length_rows, h.length_rows] at hl
  omega

end Tabular.Table
