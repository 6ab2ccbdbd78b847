import Tabular.Proofs.Table.Stumbling
import Tabular.Proofs.Table.Writing

/-!
# Well-formed table files

The form of a table file, said of its text alone: what its lines must be like for there to be a
table in it, and which table that is. Decoding takes the texts of this form and no others. The text
that the table is written to may differ from the one it was read from in the spelling of ids, in the
carriage returns at the ends of lines and in the line feed at its end; it holds the same table.
-/

namespace Tabular.Table

/-! ## The form of a text -/

/-- The first line; a text without lines has an empty one. -/
def headerLine (text : Text) : Text := (lines text).headD []

/-- The lines behind the first. -/
def bodyLines (text : Text) : List Text := (lines text).tail

/-- The names that stand in the first line. -/
def columnsIn (text : Text) : List Text := Text.pieces '\t' (headerLine text)

/-- What stands in a line for the id. -/
def idField (line : Text) : Text := (fields line).headD []

/-- One or more digits of ASCII. -/
def IsDigits (field : Text) : Prop := field ≠ [] ∧ ∀ c ∈ field, Text.isAsciiDigit c

instance (field : Text) : Decidable (IsDigits field) :=
  decidable_of_iff (field ≠ [] ∧ field.all Text.isAsciiDigit) (by simp [IsDigits])

/-- The row that stands in a line: its id as numbers are written, and the other fields by what their
texts stand for. -/
def rowIn (line : Text) : Row :=
  ⟨.number, Text.ofNat (Text.toNat (idField line))⟩ :: (fields line).tail.map Value.ofField

/-- A header of different names that are not empty, the id's first, and in every other line as many
fields as there are names, with an id of digits that no other line has. -/
structure WellFormed (text : Text) : Prop where
  header_ne : headerLine text ≠ []
  id_first : Name.isId ((columnsIn text).headD [])
  names_ne : ∀ c ∈ columnsIn text, c ≠ []
  names_distinct : ((columnsIn text).map Text.lower).Nodup
  widths : ∀ line ∈ bodyLines text, (fields line).length = (columnsIn text).length
  ids : ∀ line ∈ bodyLines text, IsDigits (idField line)
  ids_distinct : ((bodyLines text).map fun line => Text.toNat (idField line)).Nodup

/-- No id has more digits than are read. -/
def ShortIds (text : Text) : Prop :=
  ∀ line ∈ bodyLines text, IsDigits (idField line) → (idField line).length ≤ Text.digitLimit

instance (text : Text) : Decidable (ShortIds text) :=
  inferInstanceAs (Decidable (∀ line ∈ bodyLines text,
    IsDigits (idField line) → (idField line).length ≤ Text.digitLimit))

variable {text line name path : Text} {columns : List Text} {rows : List Row} {row : Row}
  {width : Nat} {t : Table}

/-! ## Texts that are decoded -/

theorem lineHolds_iff (h : IsDigits (idField line) → (idField line).length ≤ Text.digitLimit) :
    LineHolds width line row ↔
      IsDigits (idField line) ∧ (fields line).length = width ∧ row = rowIn line :=
  ⟨fun hl => ⟨hl.digits, hl.count, hl.row_eq⟩, fun ⟨hd, hc, hr⟩ => ⟨hd, h hd, hc, hr⟩⟩

theorem rowId_rowIn (line : Text) : rowId (rowIn line) = Text.toNat (idField line) := by
  rw [rowIn, rowId_cons, Text.toNat_ofNat]

theorem forall₂_lineHolds_iff {ls : List Text} (h : ∀ line ∈ ls, IsDigits (idField line) →
    (idField line).length ≤ Text.digitLimit) : List.Forall₂ (LineHolds width) ls rows ↔
      (∀ line ∈ ls, IsDigits (idField line) ∧ (fields line).length = width) ∧
        rows = ls.map rowIn := by
  induction ls generalizing rows with
  | nil => simp
  | cons line ls ih =>
    obtain ⟨hline, hls⟩ := List.forall_mem_cons.1 h
    rw [List.forall₂_cons_left_iff, List.forall_mem_cons, List.map_cons]
    constructor
    · rintro ⟨row, rest, hl, hrest, rfl⟩
      obtain ⟨hd, hc, rfl⟩ := (lineHolds_iff hline).1 hl
      obtain ⟨hall, rfl⟩ := (ih hls).1 hrest
      exact ⟨⟨⟨hd, hc⟩, hall⟩, rfl⟩
    · rintro ⟨⟨⟨hd, hc⟩, hall⟩, rfl⟩
      exact ⟨_, _, (lineHolds_iff hline).2 ⟨hd, hc, rfl⟩, (ih hls).2 ⟨hall, rfl⟩, rfl⟩

/-- What a text holds as a table file is told by its lines. -/
theorem holds_iff (h : ShortIds text) : Holds text columns rows ↔
    WellFormed text ∧ columns = columnsIn text ∧ rows = (bodyLines text).map rowIn := by
  have hids : ((bodyLines text).map rowIn).map rowId =
      (bodyLines text).map fun line => Text.toNat (idField line) := by
    rw [List.map_map]
    exact List.map_congr_left fun line _ => rowId_rowIn line
  constructor
  · rintro ⟨⟨line, hline, hheader⟩, hbody, hdistinct⟩
    have hfirst : headerLine text = line := by
      rw [headerLine, List.headD_eq_head?_getD, hline, Option.getD_some]
    obtain ⟨rfl, hid, hne, hnames⟩ := decodeHeader_eq_ok_iff.1 hheader
    obtain ⟨hall, rfl⟩ := (forall₂_lineHolds_iff h).1 hbody
    rw [← hfirst] at hid hne hnames hall ⊢
    refine ⟨⟨?_, hid, hne, hnames, fun l hl => (hall l hl).2, fun l hl => (hall l hl).1,
      hids ▸ hdistinct⟩, rfl, rfl⟩
    intro hnil
    rw [hnil] at hid
    exact absurd hid (by decide)
  · rintro ⟨hw, rfl, rfl⟩
    obtain ⟨line, rest, hlines⟩ : ∃ line rest, lines text = line :: rest := by
      refine List.exists_cons_of_ne_nil fun hnil => hw.header_ne ?_
      rw [headerLine, hnil, List.headD_nil]
    have hfirst : headerLine text = line := by rw [headerLine, hlines, List.headD_cons]
    refine ⟨⟨line, by rw [hlines]; rfl, ?_⟩, ?_, hids ▸ hw.ids_distinct⟩
    · exact decodeHeader_eq_ok_iff.2
        ⟨by rw [columnsIn, hfirst], hw.id_first, hw.names_ne, hw.names_distinct⟩
    · exact (forall₂_lineHolds_iff h).2 ⟨fun l hl => ⟨hw.ids l hl, hw.widths l hl⟩, rfl⟩

/-! ## Texts that are turned down -/

/-- A failure to decode a file names the file, or it is one to read a number. -/
def OfFile (path : Text) (e : Failure) : Prop :=
  (∃ fault, e = .rejected (.malformedFile path fault)) ∨ ∃ fault, e = .number fault

theorem ofFile_malformed (path : Text) (fault : FileFault) :
    OfFile path (.rejected (.malformedFile path fault)) := .inl ⟨fault, rfl⟩

theorem decodeId_ofFile (path : Text) (n : Nat) (field : Text) :
    (decodeId path n field).Gives (fun _ => True) (OfFile path) := by
  unfold decodeId
  split
  · exact ofFile_malformed path _
  · cases Text.toNatWithin field with
    | error fault => exact .inr ⟨fault, rfl⟩
    | ok n => trivial

theorem decodeRows_ofFile (path : Text) (width n : Nat) (seen : List Nat) (ls : List Text) :
    (decodeRows path width n seen ls).Gives (fun _ => True) (OfFile path) := by
  induction ls generalizing n seen with
  | nil => trivial
  | cons l ls ih =>
    rw [decodeRows]
    split
    · exact ofFile_malformed path _
    · refine (decodeId_ofFile path n _).bind fun id _ => ?_
      split
      · exact ofFile_malformed path _
      · exact (ih _ _).bind fun _ _ => trivial

theorem decode_ofFile (name text path : Text) :
    (decode name text path).Gives (fun _ => True) (OfFile path) := by
  unfold decode
  split
  · exact ofFile_malformed path _
  · exact ofFile_malformed path _
  · refine Except.Gives.bind (P := fun _ => True) ?_ fun columns _ =>
      (decodeRows_ofFile path _ _ _ _).bind fun rows _ => trivial
    cases decodeHeader _ with
    | error fault => exact ofFile_malformed path fault
    | ok columns => trivial

/-- A text whose ids are short is turned down for what is wrong with the file. -/
theorem decode_eq_error (h : ShortIds text) (hd : ¬ ∃ t, decode name text path = .ok t) :
    ∃ fault, decode name text path = .error (Rejection.malformedFile path fault) := by
  cases hx : decode name text path with
  | ok t => exact absurd ⟨t, hx⟩ hd
  | error e =>
    obtain ⟨fault, rfl⟩ | ⟨fault, rfl⟩ := (decode_ofFile name text path).of_error hx
    · exact ⟨fault, rfl⟩
    · obtain ⟨header, columns, front, line, back, rows, hlines, -, -, -, hlong⟩ :=
        balks_decode_iff.1 ⟨fault, hx⟩
      have hshort := h line (by simp [bodyLines, hlines]) hlong.digits
      exact absurd hlong.long (Nat.not_lt.2 hshort)

/-! ## Texts that are written again -/

theorem join_fields (line : Text) :
    Text.join ['\t'] (fields line) = (line.reverse.dropWhile (· == '\r')).reverse :=
  List.intercalate_splitOn '\t'

/-- The fields of a line do not end with a carriage return. -/
theorem getLast?_join_fields (line : Text) :
    (Text.join ['\t'] (fields line)).getLast? ≠ some '\r' := by
  have hhead := List.head?_dropWhile_not (· == '\r') line.reverse
  rw [join_fields, List.getLast?_reverse]
  intro h
  rw [h] at hhead
  exact absurd hhead (by decide)

theorem texts_rowIn (line : Text) : (rowIn line).map (·.text) =
    Text.ofNat (Text.toNat (idField line)) :: (fields line).tail := by
  simp [rowIn, Function.comp_def]

/-- The line that a row is written to has its texts for fields, as the end of the line that it was
read from is the end of this one. -/
theorem fields_rowLine_rowIn (line : Text) : fields (rowLine (rowIn line)) =
    Text.ofNat (Text.toNat (idField line)) :: (fields line).tail := by
  have htab : ∀ f ∈ fields line, '\t' ∉ f := fun f hf hm => (mem_of_mem_fields hf hm).2 rfl
  have hid : ∀ c ∈ Text.ofNat (Text.toNat (idField line)), c ≠ '\t' ∧ c ≠ '\r' := fun c hc => by
    have := Text.isAsciiDigit_of_mem_ofNat hc
    constructor <;> rintro rfl <;> exact absurd this (by decide)
  obtain ⟨f, fs, hfs⟩ : ∃ f fs, fields line = f :: fs := Text.exists_pieces_eq_cons _ _
  have hlast := getLast?_join_fields line
  rw [hfs] at htab hlast
  rw [rowLine, texts_rowIn, hfs, List.tail_cons, fields_of_getLast?_ne]
  · refine Text.pieces_join (List.cons_ne_nil _ _) (List.forall_mem_cons.2 ⟨?_, ?_⟩)
    · exact fun hm => (hid _ hm).1 rfl
    · exact (List.forall_mem_cons.1 htab).2
  · cases fs with
    | nil =>
      simp only [Text.join, List.intercalate_singleton]
      exact fun h => (hid _ (List.mem_of_getLast? h)).2 rfl
    | cons g gs =>
      simp only [Text.join, List.intercalate_cons_cons, List.append_assoc] at hlast ⊢
      simpa using hlast

theorem idField_rowLine_rowIn (line : Text) :
    idField (rowLine (rowIn line)) = Text.ofNat (Text.toNat (idField line)) := by
  rw [idField, fields_rowLine_rowIn, List.headD_cons]

theorem rowIn_rowLine_rowIn (line : Text) : rowIn (rowLine (rowIn line)) = rowIn line := by
  rw [rowIn, idField_rowLine_rowIn, Text.toNat_ofNat, fields_rowLine_rowIn, List.tail_cons, rowIn]

theorem newline_not_mem_rowLine_rowIn (h : line ∈ bodyLines text) :
    '\n' ∉ rowLine (rowIn line) := by
  intro hm
  rw [rowLine, texts_rowIn] at hm
  obtain hm | ⟨f, hf, hm⟩ := Text.mem_join hm
  · exact absurd hm (by decide)
  · obtain rfl | hf := List.mem_cons.1 hf
    · exact absurd (Text.isAsciiDigit_of_mem_ofNat hm) (by decide)
    · obtain ⟨hline, -⟩ := mem_of_mem_fields (List.mem_of_mem_tail hf) hm
      exact (mem_of_mem_lines (List.mem_of_mem_tail h) hline).2 rfl

theorem newline_not_mem_headerLine (text : Text) : '\n' ∉ headerLine text := by
  intro hm
  rw [headerLine] at hm
  cases hl : lines text with
  | nil => simp [hl] at hm
  | cons line rest =>
    have hline : line ∈ lines text := by simp [hl]
    exact (mem_of_mem_lines hline (by simpa [hl] using hm)).2 rfl

/-- The lines of a table that stands in a text, once it is written. -/
theorem lines_encode_of_columnsIn (hc : t.columns = columnsIn text)
    (hr : t.rows = (bodyLines text).map rowIn) :
    lines t.encode = headerLine text :: (bodyLines text).map fun line => rowLine (rowIn line) := by
  have hheader : Text.join ['\t'] t.columns = headerLine text := by
    rw [hc]
    exact List.intercalate_splitOn '\t'
  rw [encode_eq_flatMap, hheader, hr, List.map_map]
  refine lines_flatMap (List.forall_mem_cons.2 ⟨newline_not_mem_headerLine text, ?_⟩)
  exact List.forall_mem_map.2 fun line hline => newline_not_mem_rowLine_rowIn hline

/-- The table in a well-formed text is in the text that it is written to. -/
theorem WellFormed.holds_encode (hw : WellFormed text) (h : ShortIds text)
    (hc : t.columns = columnsIn text) (hr : t.rows = (bodyLines text).map rowIn) :
    Holds t.encode t.columns t.rows := by
  have hlines := lines_encode_of_columnsIn hc hr
  have hcolumns : columnsIn t.encode = columnsIn text := by
    rw [columnsIn, headerLine, hlines, List.headD_cons, columnsIn]
  have hbody : bodyLines t.encode = (bodyLines text).map fun line => rowLine (rowIn line) := by
    rw [bodyLines, hlines, List.tail_cons]
  have hids : ∀ line, IsDigits (Text.ofNat (Text.toNat (idField line))) := fun line =>
    ⟨Text.ofNat_ne_nil _, fun _ => Text.isAsciiDigit_of_mem_ofNat⟩
  have hshort : ShortIds t.encode := by
    rw [ShortIds, hbody]
    refine List.forall_mem_map.2 fun line hline _ => ?_
    rw [idField_rowLine_rowIn]
    have hd := hw.ids line hline
    exact (Text.length_ofNat_toNat_le hd.1 hd.2).trans (h line hline hd)
  refine (holds_iff hshort).2 ⟨⟨?_, ?_, ?_, ?_, ?_, ?_, ?_⟩, hc.trans hcolumns.symm, ?_⟩
  · rw [headerLine, hlines, List.headD_cons]
    exact hw.header_ne
  · rw [hcolumns]
    exact hw.id_first
  · rw [hcolumns]
    exact hw.names_ne
  · rw [hcolumns]
    exact hw.names_distinct
  · rw [hbody, hcolumns]
    refine List.forall_mem_map.2 fun line hline => ?_
    rw [fields_rowLine_rowIn, ← hw.widths line hline]
    obtain ⟨f, fs, hfs⟩ : ∃ f fs, fields line = f :: fs := Text.exists_pieces_eq_cons _ _
    simp [hfs]
  · rw [hbody]
    refine List.forall_mem_map.2 fun line hline => ?_
    rw [idField_rowLine_rowIn]
    exact hids line
  · simpa [hbody, Function.comp_def, idField_rowLine_rowIn] using hw.ids_distinct
  · rw [hr, hbody, List.map_map]
    exact List.map_congr_left fun line _ => (rowIn_rowLine_rowIn line).symm

/-- A text is decoded exactly if it is well-formed. The table then has the columns of its first line
and a row for each further line, in their order, with the texts of its fields but for the id, which
is as numbers are written; and the next id is one more than the largest. Any other text is turned
down for what is wrong with the file. What a table that was decoded is written to is decoded as the
same table. -/
theorem decode_iff_wellFormed (name path : Text) {text : Text} (h : ShortIds text) :
    ((∃ t, decode name text path = .ok t) ↔ WellFormed text) ∧
    (∀ t, decode name text path = .ok t → t.name = name ∧ t.columns = columnsIn text ∧
      t.rows = (bodyLines text).map rowIn ∧
      (t.rows.map fun row => row.map (·.text)) = ((bodyLines text).map fun line =>
        Text.ofNat (Text.toNat (idField line)) :: (fields line).tail) ∧
      t.nextId = (((bodyLines text).map fun line => Text.toNat (idField line)).max?.elim 1 (· + 1)) ∧
      ∀ name' path', decode name' t.encode path' = .ok { t with name := name' }) ∧
    (¬ WellFormed text →
      ∃ fault, decode name text path = .error (Rejection.malformedFile path fault)) := by
  have hdecode : (∃ t, decode name text path = .ok t) ↔ WellFormed text := by
    constructor
    · rintro ⟨t, ht⟩
      exact ((holds_iff h).1 (decode_eq_ok_iff.1 ht).1).1
    · intro hw
      exact ⟨⟨name, columnsIn text, (bodyLines text).map rowIn, followingId _⟩,
        decode_eq_ok_iff.2 ⟨(holds_iff h).2 ⟨hw, rfl, rfl⟩, rfl, rfl⟩⟩
  refine ⟨hdecode, fun t ht => ?_, fun hw => decode_eq_error h (mt hdecode.1 hw)⟩
  obtain ⟨hholds, hname, hnext⟩ := decode_eq_ok_iff.1 ht
  obtain ⟨hw, hc, hr⟩ := (holds_iff h).1 hholds
  refine ⟨hname, hc, hr, ?_, ?_, fun name' path' => ?_⟩
  · rw [hr, List.map_map]
    exact List.map_congr_left fun line _ => texts_rowIn line
  · rw [hnext, followingId_eq, hr, List.map_map]
    simp only [Function.comp_def, rowId_rowIn]
  · exact decode_eq_ok_iff.2 ⟨hw.holds_encode h hc hr, rfl, hnext⟩

/-- A text with a carriage return, zeros before an id and no line feed at its end, and the text that
its table is written to. -/
theorem decode_iff_wellFormed_of_hand_written :
    let text := "ID\ta\n007\tNULL\r\n10\t5".toList
    let t : Table := ⟨['t'], [['I', 'D'], ['a']],
      [[⟨.number, ['7']⟩, .null], [⟨.number, ['1', '0']⟩, ⟨.number, ['5']⟩]], 11⟩
    ShortIds text ∧ WellFormed text ∧ decode ['t'] text ['p'] = .ok t ∧
      t.encode = "ID\ta\n7\tNULL\n10\t5\n".toList ∧
      decode ['u'] t.encode ['q'] = .ok { t with name := ['u'] } := by
  intro text t
  have hshort : ShortIds text := by decide +kernel
  have ht : decode ['t'] text ['p'] = .ok t :=
    Except.toOption_eq_some_iff.1 (by decide +kernel)
  obtain ⟨hiff, hall, -⟩ := decode_iff_wellFormed ['t'] ['p'] hshort
  obtain ⟨-, -, -, -, -, hagain⟩ := hall t ht
  exact ⟨hshort, hiff.1 ⟨t, ht⟩, ht, by decide +kernel, hagain ['u'] ['q']⟩

end Tabular.Table
