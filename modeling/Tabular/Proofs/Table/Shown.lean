import Tabular.Join
import Tabular.Outcome
import Tabular.Proofs.Table.Operations
import Tabular.Proofs.Table.Reading
import Tabular.Proofs.Text.Word

/-!
# What is shown of tables

The header and the rows that a selection or a join shows of sound tables. Every name and every cell
fits into a field and every row is as wide as the header, so that an answer in lines and fields comes
apart into just these.
-/

namespace Tabular

/-- A text that fits into a field in small letters fits as it is. -/
theorem Text.fitsField_of_lower {t : Text} (h : (lower t).fitsField) : t.fitsField := by
  rw [Table.fitsField_iff] at h ⊢
  intro c hc
  refine ⟨?_, ?_, ?_⟩
  · rintro rfl
    exact (h _ (mem_lower (by decide) (by decide) hc)).1 rfl
  · rintro rfl
    exact (h _ (mem_lower (by decide) (by decide) hc)).2.1 rfl
  · rintro rfl
    exact (h _ (mem_lower (by decide) (by decide) hc)).2.2 rfl

/-! ## Headers and rows -/

/-- A header with a name at least, and rows as wide as it is, all of whose texts fit into fields. -/
structure Table.Ruled (header : List Text) (rows : List Row) : Prop where
  header_ne : header ≠ []
  names_fit : ∀ c ∈ header, c.fitsField
  width_eq : ∀ row ∈ rows, row.length = header.length
  cells_fit : ∀ row ∈ rows, ∀ v ∈ row, v.text.fitsField

namespace Table

variable {t : Table} {rows shown : List Row} {header : List Text}

theorem Sound.cells_fit (ht : t.Sound) {row : Row} (hrow : row ∈ t.rows) :
    ∀ v ∈ row, v.text.fitsField := fun v hv => ((ht.rows row hrow).cells v hv).fits

theorem Sound.ruled (ht : t.Sound) (hrows : ∀ row ∈ rows, row ∈ t.rows) :
    Ruled t.columns rows where
  header_ne := List.ne_nil_of_length_pos ht.columns_pos
  names_fit := fun c hc => (ht.columns_fit c hc).2
  width_eq := fun row hrow => (ht.rows row (hrows row hrow)).width_eq
  cells_fit := fun row hrow => ht.cells_fit (hrows row hrow)

/-- What is found at a place of a list is in the list, unless it stands in for nothing. -/
theorem forall_getD {α : Type} {P : α → Prop} {as : List α} {a : α} (has : ∀ b ∈ as, P b)
    (ha : P a) (i : Nat) : P (as.getD i a) := by
  rw [List.getD_eq_getElem?_getD]
  cases h : as[i]? with
  | none => exact ha
  | some b => exact has b (List.mem_of_getElem? h)

theorem indexes_length {names : List Text} {is : List Nat} (h : t.indexes names = .ok is) :
    is.length = names.length := by
  induction names generalizing is with
  | nil => cases h; rfl
  | cons c cs ih =>
    simp only [indexes, Except.bind_eq_ok_iff, Except.pure_eq_ok_iff] at h
    obtain ⟨i, -, js, hjs, rfl⟩ := h
    rw [List.length_cons, List.length_cons, ih hjs]

/-- A projection of rows of a sound table to a column at least. -/
theorem project_ruled (ht : t.Sound) (hrows : ∀ row ∈ rows, row ∈ t.rows)
    {columns : Option (List Text)} (hne : columns ≠ some [])
    (h : t.project rows columns = .ok (header, shown)) : Ruled header shown := by
  cases columns with
  | none =>
    cases h
    exact ht.ruled hrows
  | some names =>
    simp only [project, Except.bind_eq_ok_iff, Except.pure_eq_ok_iff, Prod.mk.injEq] at h
    obtain ⟨is, his, rfl, rfl⟩ := h
    refine ⟨?_, ?_, ?_, ?_⟩
    · have hlength := indexes_length his
      rintro hnil
      rw [List.map_eq_nil_iff] at hnil
      rw [hnil, List.length_nil, eq_comm, List.length_eq_zero_iff] at hlength
      exact hne (congrArg some hlength)
    · intro c hc
      obtain ⟨i, -, rfl⟩ := List.mem_map.1 hc
      exact forall_getD (fun d hd => (ht.columns_fit d hd).2) rfl i
    · intro row hrow
      obtain ⟨old, -, rfl⟩ := List.mem_map.1 hrow
      rw [List.length_map, List.length_map]
    · intro row hrow v hv
      obtain ⟨old, hold, rfl⟩ := List.mem_map.1 hrow
      obtain ⟨i, -, rfl⟩ := List.mem_map.1 hv
      exact forall_getD (P := fun w : Value => w.text.fitsField)
        (ht.cells_fit (hrows old hold)) (by decide) i

end Table

/-! ## Joins -/

namespace Join

variable {left right these rows : List Row} {l r : Table}

theorem mem_partners {key : Value} {place : Nat} (h : partners key place right = .ok these) :
    ∀ row ∈ these, row ∈ right := by
  induction right generalizing these with
  | nil => cases h; exact nofun
  | cons other others ih =>
    simp only [partners, Except.bind_eq_ok_iff, Except.pure_eq_ok_iff] at h
    obtain ⟨yes, -, rest, hrest, rfl⟩ := h
    intro row hrow
    cases yes with
    | true =>
      obtain rfl | hrow := List.mem_cons.1 hrow
      · exact List.mem_cons_self
      · exact List.mem_cons_of_mem _ (ih hrest row hrow)
    | false => exact List.mem_cons_of_mem _ (ih hrest row hrow)

/-- A joined row is made of a row of each table, without their ids. -/
theorem mem_pairs {i j : Nat} (h : pairs left i right j = .ok rows) :
    ∀ row ∈ rows, ∃ a ∈ left, ∃ b ∈ right, row = a.tail ++ b.tail := by
  induction left generalizing rows with
  | nil => cases h; exact nofun
  | cons a as ih =>
    simp only [pairs, Except.bind_eq_ok_iff, Except.pure_eq_ok_iff] at h
    obtain ⟨these, hthese, rest, hrest, rfl⟩ := h
    intro row hrow
    obtain hrow | hrow := List.mem_append.1 hrow
    · obtain ⟨b, hb, rfl⟩ := List.mem_map.1 hrow
      exact ⟨a, List.mem_cons_self, b, mem_partners hthese b hb, rfl⟩
    · obtain ⟨a', ha', hb⟩ := ih hrest row hrow
      exact ⟨a', List.mem_cons_of_mem _ ha', hb⟩

theorem mem_numbered {n : Nat} :
    ∀ row ∈ numbered n rows, ∃ m, ∃ cells ∈ rows, row = ⟨.number, Text.ofNat m⟩ :: cells := by
  induction rows generalizing n with
  | nil => exact nofun
  | cons cells rest ih =>
    intro row hrow
    obtain rfl | hrow := List.mem_cons.1 hrow
    · exact ⟨n, cells, List.mem_cons_self, rfl⟩
    · obtain ⟨m, cells', hcells, he⟩ := ih row hrow
      exact ⟨m, cells', List.mem_cons_of_mem _ hcells, he⟩

theorem qualified_fit (hl : l.Sound) (hname : l.name.fitsField) :
    ∀ c ∈ qualified l, c.fitsField := by
  intro c hc
  obtain ⟨d, hd, rfl⟩ := List.mem_map.1 hc
  have hfit := (hl.columns_fit d (List.mem_of_mem_tail hd)).2
  unfold Text.fitsField at hname hfit ⊢
  rw [List.all_append, List.all_append, hname, hfit]
  rfl

/-- A join of sound tables whose names fit into a field. -/
theorem join_ruled (hl : l.Sound) (hr : r.Sound) (hln : l.name.fitsField)
    (hrn : r.name.fitsField) {leftColumn rightColumn : Text} {header : List Text}
    {shown : List Row} (h : join l r leftColumn rightColumn = .ok (header, shown)) :
    Table.Ruled header shown := by
  simp only [join, Except.bind_eq_ok_iff, Except.pure_eq_ok_iff, Prod.mk.injEq] at h
  obtain ⟨i, -, j, -, rows, hrows, rfl, rfl⟩ := h
  refine ⟨List.cons_ne_nil _ _, ?_, ?_, ?_⟩
  · refine List.forall_mem_cons.2 ⟨by decide, List.forall_mem_append.2 ⟨?_, ?_⟩⟩
    · exact qualified_fit hl hln
    · exact qualified_fit hr hrn
  · intro row hrow
    obtain ⟨m, cells, hcells, rfl⟩ := mem_numbered row hrow
    obtain ⟨a, ha, b, hb, rfl⟩ := mem_pairs hrows cells hcells
    have hwa := (hl.rows a ha).width_eq
    have hwb := (hr.rows b hb).width_eq
    simp [qualified, hwa, hwb]
  · intro row hrow v hv
    obtain ⟨m, cells, hcells, rfl⟩ := mem_numbered row hrow
    obtain ⟨a, ha, b, hb, rfl⟩ := mem_pairs hrows cells hcells
    obtain rfl | hv := List.mem_cons.1 hv
    · exact Table.fitsField_ofNat m
    · obtain hv | hv := List.mem_append.1 hv
      · exact hl.cells_fit ha v (List.mem_of_mem_tail hv)
      · exact hr.cells_fit hb v (List.mem_of_mem_tail hv)

end Join

/-! ## Lines and fields -/

namespace Outcome

/-- Fields that are written in a line are read from it. -/
theorem pieces_line {fields : List Text} (hne : fields ≠ []) (h : ∀ f ∈ fields, f.fitsField) :
    Text.pieces '\t' (line fields) = fields :=
  Text.pieces_join hne fun f hf hm => (Table.fitsField_iff.1 (h f hf) _ hm).1 rfl

theorem line_not_mem {fields : List Text} (h : ∀ f ∈ fields, f.fitsField) :
    '\n' ∉ line fields := by
  intro hm
  obtain hm | ⟨f, hf, hm⟩ := Text.mem_join hm
  · cases hm
  · exact (Table.fitsField_iff.1 (h f hf) _ hm).2.2 rfl

end Outcome

namespace Result

variable {r : Result}

theorem rowTexts_fit (h : Table.Ruled r.header r.rows) :
    ∀ fields ∈ r.rowTexts, fields.length = r.header.length ∧ ∀ f ∈ fields, f.fitsField := by
  intro fields hfields
  obtain ⟨row, hrow, rfl⟩ := List.mem_map.1 hfields
  refine ⟨(List.length_map _).trans (h.width_eq row hrow), fun f hf => ?_⟩
  obtain ⟨v, hv, rfl⟩ := List.mem_map.1 hf
  exact h.cells_fit row hrow v hv

/-- The answer that shows a header and rows comes apart into a line that says that all is well, and
one for the header and for each row. -/
theorem pieces_response {label : Label} (hrows : label.hasRows)
    (h : Table.Ruled r.header r.rows) :
    Text.pieces '\n' (⟨label, .ok r⟩ : Outcome).response =
      Outcome.okTag :: Outcome.line r.header :: r.rowTexts.map Outcome.line := by
  simp only [Outcome.response, if_pos hrows]
  refine Text.pieces_join (List.cons_ne_nil _ _) ?_
  refine List.forall_mem_cons.2 ⟨by decide, List.forall_mem_cons.2 ⟨?_, fun l hl => ?_⟩⟩
  · exact Outcome.line_not_mem h.names_fit
  · obtain ⟨fields, hfields, rfl⟩ := List.mem_map.1 hl
    exact Outcome.line_not_mem (rowTexts_fit h fields hfields).2

/-- The fields of the lines of a row are the texts of its cells. -/
theorem map_pieces_rowTexts (h : Table.Ruled r.header r.rows) :
    (r.rowTexts.map Outcome.line).map (Text.pieces '\t') = r.rowTexts := by
  rw [List.map_map]
  refine (List.map_congr_left fun fields hfields => ?_).trans (List.map_id _)
  obtain ⟨hwidth, hfit⟩ := rowTexts_fit h fields hfields
  refine Outcome.pieces_line (fun hnil => h.header_ne ?_) hfit
  rw [hnil] at hwidth
  exact List.length_eq_zero_iff.1 hwidth.symm

end Result

end Tabular
