import Tabular.Proofs.Catalog.Sane

/-!
# Files that end with a line break

On a disk where every file ends with a line break, but perhaps those whose names begin with a dot,
each statement leaves such a disk, whatever it comes to. There, what a file holds with one more row
after it is what it held before, and that row.
-/

namespace Tabular

namespace Table

/-- A row after a line feed is the last row, and the others were there before. -/
theorem Holds.of_append_row {text : Text} {columns : List Text} {rows : List Row} {row : Row}
    {width : Nat} (ht : text.getLast? = some '\n') (hr : SoundRow width row)
    (h : Holds (text ++ encodeRow row) columns (rows ++ [row])) : Holds text columns rows := by
  have hl : lines (text ++ encodeRow row) = lines text ++ [rowLine row] :=
    lines_append_line ht hr.newline_not_mem
  have hne : lines text ≠ [] := by
    obtain ⟨s, rfl⟩ := List.getLast?_eq_some_iff.1 ht
    rw [lines_concat]
    obtain ⟨p, ps, hp⟩ := Text.exists_pieces_eq_cons '\n' s
    rw [hp]
    exact List.cons_ne_nil p ps
  obtain ⟨line, hline, hc⟩ := h.header
  have hb := h.body
  rw [hl, List.tail_append_of_ne_nil hne] at hb
  have hlen := hb.length_eq
  simp only [List.length_append, List.length_singleton, Nat.add_right_cancel_iff] at hlen
  refine ⟨⟨line, ?_, hc⟩, ?_, (List.Sublist.map rowId (List.sublist_append_left ..)).nodup
    h.ids_distinct⟩
  · rw [hl, List.head?_append_of_ne_nil _ hne] at hline
    exact hline
  · have hinit := List.forall₂_take_append _ rows [row] hb
    rwa [← hlen, List.take_left] at hinit

end Table

namespace Archive

variable {content : Bytes} {row : Row}

theorem ended_append_row {width : Nat} (he : Ended content) (hr : Table.SoundRow width row) :
    Ended (content ++ Utf8.encode (Table.encodeRow row)) := by
  obtain ⟨text, hd, -⟩ := he
  exact ⟨_, (decode_append_row hd hr).1, .inl (by simp [Table.encodeRow_eq])⟩

/-- Bytes with a row after their last line break hold that row and what they held before. -/
theorem readsAs_append_row_iff {columns : List Text} {rows : List Row} (he : Ended content)
    (hr : Table.SoundRow columns.length row) (hid : Table.rowId row ∉ rows.map Table.rowId) :
    ReadsAs (content ++ Utf8.encode (Table.encodeRow row)) columns (rows ++ [row]) ↔
      ReadsAs content columns rows := by
  refine ⟨fun ⟨text', hd', hh⟩ => ?_, fun h => (h.append_row he hr hid).1⟩
  obtain ⟨text, hd, hl⟩ := he
  obtain ⟨hda, hu⟩ := decode_append_row hd hr
  cases hda.symm.trans hd'
  rw [hu] at hh
  exact ⟨text, hd, hh.of_append_row (getLast?_unifyLines_iff.2 hl) hr⟩

end Archive

/-- Every file ends with a line break, but perhaps those whose names begin with a dot. -/
def Disk.Lined (d : Disk) : Prop :=
  ∀ x f content, f.head? ≠ some '.' → d.entries.get? [x, f] = some (.file content) →
    Archive.Ended content

namespace Disk.Lined

variable {d d' : Disk} {x f : Text} {content : Bytes}

theorem empty (root : Text) : (Disk.empty root).Lined := by
  intro x f content _ hc
  simp [Disk.empty] at hc

/-- No file came or changed. -/
theorem of_get? (h : d.Lined) (hg : ∀ p content, d'.entries.get? p = some (.file content) →
    d.entries.get? p = some (.file content)) : d'.Lined :=
  fun x f content hf hc => h x f content hf (hg _ content hc)

theorem congr (h : d.Lined) (he : d'.entries = d.entries) : d'.Lined :=
  h.of_get? fun _ _ hc => he ▸ hc

theorem put_file (h : d.Lined) (hf : f.head? ≠ some '.' → Archive.Ended content) :
    (d.put [x, f] (.file content)).Lined := by
  intro y g content' hg hc
  rw [put_entries, OrderedMap.get?_put] at hc
  split at hc
  · next hp =>
    cases hp
    cases hc
    exact hf hg
  · exact h y g content' hg hc

theorem put_directory (h : d.Lined) : (d.put [x] .directory).Lined := by
  refine h.of_get? fun p content hc => ?_
  rw [put_entries, OrderedMap.get?_put] at hc
  split at hc
  · cases hc
  · exact hc

theorem cut (h : d.Lined) (p : Path) : (d.cut p).Lined := by
  refine h.of_get? fun q content hc => ?_
  rw [get?_cut] at hc
  split at hc
  · cases hc
  · exact hc

theorem emptied (h : d.Lined) (p : Path) : (d.emptied p).Lined := by
  refine h.of_get? fun q content hc => ?_
  rw [get?_emptied] at hc
  split at hc
  · cases hc
  · exact hc

theorem erase (h : d.Lined) (p : Path) : (d.erase p).Lined := by
  refine h.of_get? fun q content hc => ?_
  rw [Disk.erase, OrderedMap.get?_erase] at hc
  split at hc
  · cases hc
  · exact hc

end Disk.Lined

namespace Catalog

variable {c : Catalog} {x : Text} {d : Database} {disk : Disk} {r : OrderedMap Text Database}
  {s : Statement} {selected : Option Text}

/-- The file of a table with a row after it. -/
theorem lined_line (h : c.archive.disk.Lined) {t : Table} {row : Row} {content : Bytes} {width : Nat}
    (hr : Table.SoundRow width row)
    (hg : c.archive.disk.entries.get? [x, c.archive.fileName t.name] = some (.file content)) :
    (c.archive.putFile x t.name (content ++ Utf8.encode (Table.encodeRow row))).disk.Lined :=
  h.put_file fun hf => Archive.ended_append_row (h x _ content hf hg) hr

theorem soundRow_of_edit (hc : c.Sane) {t old : Table} {result : Result} {row : Row} {k : Text}
    (hr : c.resident.get? x = some d) (hold : d.tables.get? k = some old)
    (hw : s.edit old = .ok (result, .row t row)) : Table.SoundRow old.columns.length row :=
  (Statement.edit_fits (hc.held x d hr k old hold).sound hw).2.1

theorem Succeeds.lined {result : Result} (h : c.Succeeds selected s result disk r) (hc : c.Sane)
    (hl : c.archive.disk.Lined) : disk.Lined := by
  cases h with
  | use => exact hl
  | createDatabase => exact hl.put_directory
  | dropDatabase => exact hl.cut _
  | createTable => exact hl.put_file fun _ => Archive.ended_encode _
  | dropTable => exact hl.erase _
  | edit about chosen held there worked written =>
    cases written with
    | none => exact hl
    | whole => exact hl.put_file fun _ => Archive.ended_encode _
    | row => exact hl.put_file fun _ => Archive.ended_encode _
    | line mode file => exact lined_line hl (soundRow_of_edit hc held there worked) file
  | join => exact hl

theorem Fails.lined {f : Failure} (h : c.Fails selected s f disk r) (hc : c.Sane)
    (hl : c.archive.disk.Lined) : disk.Lined := by
  -- A temporary file may hold anything, but its name begins with a dot.
  have hdraft : ∀ x t content, (c.archive.drafted x t content).Lined := fun x t content =>
    hl.put_file fun hf => absurd rfl hf
  cases h with
  | unchanged => exact hl
  | unworked => exact hl
  | emptied => exact hl.emptied _
  | draft => exact hdraft _ _ _
  | edit about chosen held there worked made left =>
    cases left with
    | unwritten => exact hl
    | draft => exact hdraft _ _ _
    | line writing mode file => exact lined_line hl (soundRow_of_edit hc held there worked) file
    | missing => exact hl

end Catalog

end Tabular
