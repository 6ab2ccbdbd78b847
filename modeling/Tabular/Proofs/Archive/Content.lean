import Tabular.Archive
import Tabular.Proofs.Table.Writing
import Tabular.Proofs.Text.Utf8

/-!
# Contents of table files

What the bytes of a file hold as a table, and what becomes of it when a row is written after them.
The row is one more row if the bytes end with a line break. If they do not, it is none.
-/

namespace Tabular.Archive

/-- Bytes and the columns and rows that they hold. -/
def ReadsAs (content : Bytes) (columns : List Text) (rows : List Row) : Prop :=
  ∃ text, Utf8.decode content = .ok text ∧ Table.Holds (unifyLines text) columns rows

/-- Bytes of a text that ends with a line break of any kind. -/
def Ended (content : Bytes) : Prop :=
  ∃ text, Utf8.decode content = .ok text ∧
    (text.getLast? = some '\n' ∨ text.getLast? = some '\r')

/-- The table in the bytes of a file. -/
def tableOf (name path : Text) (content : Bytes) : Except Failure Table :=
  match Utf8.decode content with
  | .error fault => .error (.rejected (.storage (.decodeFile path fault)))
  | .ok text => Table.decode name (unifyLines text) path

/-! ## Line breaks -/

theorem unifyLines_cons {c : Char} (h : c ≠ '\r') (t : Text) :
    unifyLines (c :: t) = c :: unifyLines t := by
  rw [unifyLines.eq_def]
  split
  · next he => cases he
  · next he => exact absurd (List.cons.inj he).1 h
  · next he => exact absurd (List.cons.inj he).1 h
  · next he => obtain ⟨rfl, rfl⟩ := List.cons.inj he; rfl

theorem unifyLines_return {t : Text} (h : t.head? ≠ some '\n') :
    unifyLines ('\r' :: t) = '\n' :: unifyLines t := by
  rw [unifyLines.eq_def]
  split
  · next he => cases he
  · next he => rw [(List.cons.inj he).2] at h; exact absurd rfl h
  · next he => rw [(List.cons.inj he).2]
  · next hc he => exact absurd (List.cons.inj he).1.symm hc

/-- A text without carriage returns has only line feeds. -/
theorem unifyLines_of_not_mem {t : Text} (h : '\r' ∉ t) : unifyLines t = t := by
  induction t with
  | nil => rfl
  | cons c t ih =>
    simp only [List.mem_cons, not_or] at h
    rw [unifyLines_cons (Ne.symm h.1), ih h.2]

theorem not_mem_unifyLines (t : Text) : '\r' ∉ unifyLines t := by
  induction t using unifyLines.induct with
  | case1 => simp [unifyLines]
  | case2 t ih => simpa [unifyLines] using ih
  | case3 t hn ih =>
    have hh : t.head? ≠ some '\n' := by
      intro he
      obtain ⟨s, rfl⟩ := List.head?_eq_some_iff.1 he
      exact hn s rfl
    simpa [unifyLines_return hh] using ih
  | case4 c t _ hc ih =>
    have hr : c ≠ '\r' := hc
    simpa [unifyLines_cons hr, Ne.symm hr] using ih

/-- Texts are unified one after the other unless a line break is torn apart. -/
theorem unifyLines_append (s : Text) {t : Text} (h : t.head? ≠ some '\n') :
    unifyLines (s ++ t) = unifyLines s ++ unifyLines t := by
  induction s using unifyLines.induct with
  | case1 => rfl
  | case2 s ih => simp [unifyLines, ih]
  | case3 s hn ih =>
    have hs : s.head? ≠ some '\n' := by
      intro he
      obtain ⟨u, rfl⟩ := List.head?_eq_some_iff.1 he
      exact hn u rfl
    have hst : (s ++ t).head? ≠ some '\n' := by
      cases s with
      | nil => exact h
      | cons c s => simpa using hs
    rw [List.cons_append, unifyLines_return hst, unifyLines_return hs, ih, List.cons_append]
  | case4 c s _ hc ih =>
    have hr : c ≠ '\r' := hc
    rw [List.cons_append, unifyLines_cons hr, unifyLines_cons hr, ih, List.cons_append]

theorem exists_unifyLines_concat (s : Text) : ∃ u, unifyLines (s ++ ['\n']) = u ++ ['\n'] := by
  induction s using unifyLines.induct with
  | case1 => exact ⟨[], rfl⟩
  | case2 s ih =>
    obtain ⟨u, hu⟩ := ih
    exact ⟨'\n' :: u, by simp [unifyLines, hu]⟩
  | case3 s hn ih =>
    obtain ⟨u, hu⟩ := ih
    cases s with
    | nil => exact ⟨[], rfl⟩
    | cons c s =>
      have hc : (c :: s ++ ['\n']).head? ≠ some '\n' := fun he => by cases he; exact hn s rfl
      exact ⟨'\n' :: u, by rw [List.cons_append, unifyLines_return hc, hu]; rfl⟩
  | case4 c s _ hc ih =>
    obtain ⟨u, hu⟩ := ih
    exact ⟨c :: u, by rw [List.cons_append, unifyLines_cons hc, hu]; rfl⟩

theorem getLast?_unifyLines_iff {t : Text} :
    (unifyLines t).getLast? = some '\n' ↔ t.getLast? = some '\n' ∨ t.getLast? = some '\r' := by
  cases t using List.reverseRecOn with
  | nil => simp [unifyLines]
  | append_singleton s c =>
    by_cases hc : c = '\n'
    · obtain ⟨u, hu⟩ := exists_unifyLines_concat s
      simp [hc, hu]
    · have hh : [c].head? ≠ some '\n' := by simpa using hc
      rw [unifyLines_append s hh]
      by_cases hr : c = '\r'
      · simp [hr, unifyLines]
      · simp [unifyLines_cons hr, unifyLines, hc, hr]

/-! ## Reading -/

theorem tableOf_eq_ok_iff {name path : Text} {content : Bytes} {t : Table} :
    tableOf name path content = .ok t ↔
      ReadsAs content t.columns t.rows ∧ t.name = name ∧ t.nextId = Table.followingId t.rows := by
  unfold tableOf ReadsAs
  cases hd : Utf8.decode content with
  | error fault => simp
  | ok text => simp [Table.decode_eq_ok_iff]

/-- Bytes that hold the same are read the same, under any name and from any path. -/
theorem tableOf_eq_of_readsAs {name path : Text} {content : Bytes} {columns : List Text}
    {rows : List Row} (h : ReadsAs content columns rows) :
    tableOf name path content = .ok ⟨name, columns, rows, Table.followingId rows⟩ :=
  tableOf_eq_ok_iff.2 ⟨h, rfl, rfl⟩

theorem ReadsAs.sound {content : Bytes} {t : Table} (h : ReadsAs content t.columns t.rows)
    (hn : Table.followingId t.rows ≤ t.nextId) : t.Sound := by
  obtain ⟨text, -, hh⟩ := h
  exact hh.sound (not_mem_unifyLines text) hn

/-! ## Writing -/

theorem readsAs_encode {t : Table} (ht : t.Sound) :
    ReadsAs (Utf8.encode t.encode) t.columns t.rows :=
  ⟨_, Utf8.decode_encode _, by
    rw [unifyLines_of_not_mem (Table.not_mem_encode ht)]
    exact Table.holds_encode ht⟩

theorem ended_encode (t : Table) : Ended (Utf8.encode t.encode) :=
  ⟨_, Utf8.decode_encode _, .inl (Table.getLast?_encode t)⟩

theorem head?_encodeRow {width : Nat} {row : Row} (h : Table.SoundRow width row) :
    (Table.encodeRow row).head? ≠ some '\n' := by
  have hne : Table.rowLine row ≠ [] := by
    intro hnil
    have hd := h.lineHolds.digits.1
    rw [hnil] at hd
    exact hd rfl
  obtain ⟨c, cs, hc⟩ := List.exists_cons_of_ne_nil hne
  have hm : c ∈ Table.rowLine row := by rw [hc]; exact List.mem_cons_self
  intro he
  rw [Table.encodeRow_eq, hc, List.cons_append, List.head?_cons, Option.some.injEq] at he
  exact h.newline_not_mem (he ▸ hm)

theorem unifyLines_encodeRow {width : Nat} {row : Row} (h : Table.SoundRow width row) :
    unifyLines (Table.encodeRow row) = Table.encodeRow row := by
  apply unifyLines_of_not_mem
  rw [Table.encodeRow_eq, List.mem_append, List.mem_singleton]
  rintro (hm | hm)
  · exact Table.not_mem_join h.texts_fit (.inl rfl) hm
  · cases hm

/-- The text of bytes with a row after them. -/
theorem decode_append_row {content : Bytes} {text : Text} {width : Nat} {row : Row}
    (hd : Utf8.decode content = .ok text) (hr : Table.SoundRow width row) :
    Utf8.decode (content ++ Utf8.encode (Table.encodeRow row)) =
      .ok (text ++ Table.encodeRow row) ∧
    unifyLines (text ++ Table.encodeRow row) = unifyLines text ++ Table.encodeRow row := by
  refine ⟨Utf8.decode_append hd (Utf8.decodeFrom_encode _), ?_⟩
  rw [unifyLines_append _ (head?_encodeRow hr), unifyLines_encodeRow hr]

/-- A row after a line break is one more row, and a line break comes last again. -/
theorem ReadsAs.append_row {content : Bytes} {columns : List Text} {rows : List Row} {row : Row}
    (h : ReadsAs content columns rows) (he : Ended content)
    (hr : Table.SoundRow columns.length row) (hid : Table.rowId row ∉ rows.map Table.rowId) :
    ReadsAs (content ++ Utf8.encode (Table.encodeRow row)) columns (rows ++ [row]) ∧
      Ended (content ++ Utf8.encode (Table.encodeRow row)) := by
  obtain ⟨text, hd, hh⟩ := h
  obtain ⟨_, hd', hl⟩ := he
  cases hd.symm.trans hd'
  obtain ⟨hda, hu⟩ := decode_append_row hd hr
  refine ⟨⟨_, hda, ?_⟩, _, hda, .inl (by simp [Table.encodeRow_eq])⟩
  rw [hu]
  exact hh.append_row (getLast?_unifyLines_iff.2 hl) hr hid

/-- A row after anything but a line break adds no row. -/
theorem ReadsAs.length_append_row {content : Bytes} {columns columns' : List Text}
    {rows rows' : List Row} {row : Row} {width : Nat} (h : ReadsAs content columns rows)
    (he : ¬ Ended content) (hr : Table.SoundRow width row)
    (h' : ReadsAs (content ++ Utf8.encode (Table.encodeRow row)) columns' rows') :
    rows'.length = rows.length := by
  obtain ⟨text, hd, hh⟩ := h
  obtain ⟨_, hd', hh'⟩ := h'
  obtain ⟨hda, hu⟩ := decode_append_row hd hr
  cases hda.symm.trans hd'
  rw [hu] at hh'
  refine hh.length_append_row ?_ hr.newline_not_mem hh'
  intro hl
  exact he ⟨text, hd, getLast?_unifyLines_iff.1 hl⟩

end Tabular.Archive
