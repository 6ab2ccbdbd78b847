import Tabular.Proofs.Table.Sound
import Tabular.Proofs.Text.Lines

/-!
# Reading table files

What a text holds as a table file, said line by line and without the name of the table or the path
of the file: the columns of its first line, and a row for each further line. A text is decoded
exactly if it holds something, and what it holds is sound if no carriage return is in it.
-/

namespace Tabular.Table

/-- A line and the row that it stands for: an id of ASCII digits, then a field for each column. -/
structure LineHolds (width : Nat) (line : Text) (row : Row) : Prop where
  digits : (fields line).headD [] ≠ [] ∧ ∀ c ∈ (fields line).headD [], Text.isAsciiDigit c
  short : ((fields line).headD []).length ≤ Text.digitLimit
  count : (fields line).length = width
  row_eq : row = ⟨.number, Text.ofNat (Text.toNat ((fields line).headD []))⟩ ::
    (fields line).tail.map Value.ofField

/-- A text and the columns and rows that it holds as a table file. -/
structure Holds (text : Text) (columns : List Text) (rows : List Row) : Prop where
  header : ∃ line, (lines text).head? = some line ∧ decodeHeader line = .ok columns
  body : List.Forall₂ (LineHolds columns.length) (lines text).tail rows
  ids_distinct : (rows.map rowId).Nodup

/-- The id that comes after those of rows. -/
def followingId (rows : List Row) : Nat := (rows.map rowId).foldl max 0 + 1

theorem LineHolds.rowId_eq {width : Nat} {line : Text} {row : Row} (h : LineHolds width line row) :
    rowId row = Text.toNat ((fields line).headD []) := by
  rw [h.row_eq, rowId_cons, Text.toNat_ofNat]

theorem decodeId_eq_ok_iff {path : Text} {line id : Nat} {field : Text} :
    decodeId path line field = .ok id ↔ (field ≠ [] ∧ ∀ c ∈ field, Text.isAsciiDigit c) ∧
      field.length ≤ Text.digitLimit ∧ id = Text.toNat field := by
  unfold decodeId
  split
  · next h =>
    simp only [reduceCtorEq, false_iff]
    rintro ⟨⟨hne, hd⟩, -⟩
    simp only [Bool.or_eq_true, List.isEmpty_iff, Bool.not_eq_true', Bool.eq_false_iff, ne_eq,
      List.all_eq_true] at h
    rcases h with h | h
    · exact hne h
    · exact h hd
  · next h =>
    simp only [Bool.or_eq_true, List.isEmpty_iff, Bool.not_eq_true', not_or, Bool.not_eq_false,
      List.all_eq_true] at h
    unfold Text.toNatWithin
    split
    · next hl =>
      simp only [Except.mapError, reduceCtorEq, false_iff]
      exact fun h => absurd h.2.1 (Nat.not_le.2 hl)
    · next hl =>
      simp only [Except.mapError, Except.ok.injEq]
      exact ⟨fun he => ⟨h, Nat.not_lt.1 hl, he.symm⟩, fun h => h.2.2.symm⟩

/-- Lines are decoded exactly if each holds a row and no id comes twice. -/
theorem decodeRows_eq_ok_iff {path : Text} {width line : Nat} {seen : List Nat} {ls : List Text}
    {out : List (Nat × Row)} :
    decodeRows path width line seen ls = .ok out ↔
      List.Forall₂ (fun l o => LineHolds width l o.2 ∧ o.1 = rowId o.2) ls out ∧
      (out.map (·.1)).Nodup ∧ ∀ o ∈ out, o.1 ∉ seen := by
  induction ls generalizing line seen out with
  | nil => cases out <;> simp [decodeRows]
  | cons l ls ih =>
    rw [decodeRows]
    split
    · next hw =>
      simp only [reduceCtorEq, false_iff]
      rintro ⟨hf, -⟩
      cases hf with
      | cons h _ => exact hw h.1.count
    · next hw =>
      rw [Except.bind_eq_ok_iff]
      constructor
      · rintro ⟨id, hid, h⟩
        obtain ⟨hd, hs, rfl⟩ := decodeId_eq_ok_iff.1 hid
        split at h
        · cases h
        · next hn =>
          simp only [Except.bind_eq_ok_iff, Except.pure_eq_ok_iff] at h
          obtain ⟨rest, hr, rfl⟩ := h
          obtain ⟨hf, hnd, hns⟩ := ih.1 hr
          refine ⟨.cons ⟨⟨hd, hs, by omega, rfl⟩, by simp⟩ hf, ?_, ?_⟩
          · simp only [List.map_cons, List.nodup_cons, List.mem_map, not_exists, not_and]
            exact ⟨fun o ho he => hns o ho (by simp [he]), hnd⟩
          · intro o ho
            rcases List.mem_cons.1 ho with rfl | ho
            · simpa using hn
            · exact fun hm => hns o ho (by simp [hm])
      · rintro ⟨hf, hnd, hns⟩
        cases hf with
        | @cons _ o _ rest h hf =>
          obtain ⟨id, row⟩ := o
          obtain ⟨hl, he⟩ := h
          simp only at hl he
          subst he
          have hid := hl.rowId_eq
          refine ⟨_, decodeId_eq_ok_iff.2 ⟨hl.digits, hl.short, hid⟩, ?_⟩
          have hn : (seen.elem (rowId row)) = false := by
            simpa using hns (rowId row, row) (by simp)
          simp only [hn, Bool.false_eq_true, if_false, Except.bind_eq_ok_iff,
            Except.pure_eq_ok_iff]
          simp only [List.map_cons, List.nodup_cons] at hnd
          refine ⟨rest, ih.2 ⟨hf, hnd.2, ?_⟩, ?_⟩
          · intro o ho hm
            rcases List.mem_cons.1 hm with he | hm
            · exact hnd.1 (List.mem_map.2 ⟨o, ho, he⟩)
            · exact hns o (by simp [ho]) hm
          · rw [hid, ← hl.row_eq]

theorem map_fst_eq {P : Text → Nat × Row → Prop} {ls : List Text} {out : List (Nat × Row)}
    (h : List.Forall₂ (fun l o => P l o ∧ o.1 = rowId o.2) ls out) :
    out.map (·.1) = (out.map (·.2)).map rowId := by
  induction h with
  | nil => rfl
  | cons h _ ih => simp only [List.map_cons, h.2, ih]

/-- A text is decoded exactly if it holds something, under any name and from any path. -/
theorem decode_eq_ok_iff {name text path : Text} {t : Table} :
    decode name text path = .ok t ↔
      Holds text t.columns t.rows ∧ t.name = name ∧ t.nextId = followingId t.rows := by
  have hpairs : ∀ (width : Nat) (ls : List Text) (rows : List Row),
      List.Forall₂ (LineHolds width) ls rows →
      List.Forall₂ (fun l o => LineHolds width l o.2 ∧ o.1 = rowId o.2) ls
        (rows.map fun row => (rowId row, row)) := fun _ _ _ h =>
    List.forall₂_map_right_iff.2 (h.imp fun _ _ h => ⟨h, rfl⟩)
  constructor
  · intro h
    unfold decode at h
    split at h
    · cases h
    · cases h
    · next header body hne hl =>
      simp only [Except.bind_eq_ok_iff, Except.mapError_eq_ok_iff, Except.pure_eq_ok_iff] at h
      obtain ⟨columns, hc, out, ho, rfl⟩ := h
      obtain ⟨hf, hnd, -⟩ := decodeRows_eq_ok_iff.1 ho
      have hids := map_fst_eq hf
      refine ⟨⟨⟨header, by rw [hl]; rfl, hc⟩, ?_, hids ▸ hnd⟩, rfl, by rw [followingId, ← hids]⟩
      rw [hl]
      exact List.forall₂_map_right_iff.2 (hf.imp fun _ _ h => h.1)
  · rintro ⟨⟨⟨header, hh, hc⟩, hb, hnd⟩, rfl, hn⟩
    obtain ⟨body, hl⟩ := List.head?_eq_some_iff.1 hh
    have hne : header ≠ [] := by rintro rfl; cases hc
    unfold decode
    rw [hl] at hb ⊢
    have hr : decodeRows path t.columns.length 2 [] body =
        .ok (t.rows.map fun row => (rowId row, row)) := by
      refine decodeRows_eq_ok_iff.2 ⟨hpairs _ _ _ hb, ?_, by simp⟩
      simpa [Function.comp_def] using hnd
    split
    · next he => cases he
    · next he => exact absurd (List.cons.inj he).1 hne
    · next he =>
      obtain ⟨rfl, rfl⟩ := List.cons.inj he
      simp only [hc, hr, Except.mapError, bind, Except.bind, pure, Except.pure, List.map_map,
        Function.comp_def, List.map_id']
      rw [← followingId.eq_def, ← hn]

/-! ## What is held is sound -/

/-- The names of a header that pass the check, after others. -/
theorem checkHeader_eq_ok_iff {before columns : List Text} :
    checkHeader before columns = .ok () ↔
      (∀ c ∈ columns, c ≠ []) ∧ (columns.map Text.lower).Nodup ∧
        ∀ c ∈ columns, Text.lower c ∉ before.map Text.lower := by
  induction columns generalizing before with
  | nil => simp [checkHeader]
  | cons c cs ih =>
    have hfind : (Name.find? before c).isSome ↔ Text.lower c ∈ before.map Text.lower := by
      rw [Name.find?, List.findIdx?_isSome, List.any_eq_true, List.mem_map]
      simp only [beq_iff_eq]
    rw [checkHeader]
    split
    · next h =>
      simp only [Bool.or_eq_true, List.isEmpty_iff, hfind] at h
      simp only [reduceCtorEq, false_iff]
      rintro ⟨hne, -, hb⟩
      rcases h with rfl | h
      · exact hne [] (by simp) rfl
      · exact hb c (by simp) h
    · next h =>
      simp only [Bool.or_eq_true, List.isEmpty_iff, hfind, not_or] at h
      rw [ih]
      simp only [List.map_append, List.map_cons, List.map_nil, List.mem_append,
        List.mem_cons, List.not_mem_nil, or_false, forall_eq_or_imp, List.nodup_cons, not_or]
      constructor
      · rintro ⟨hne, hnd, hb⟩
        refine ⟨⟨h.1, hne⟩, ⟨?_, hnd⟩, h.2, fun d hd => (hb d hd).1⟩
        intro hm
        obtain ⟨d, hd, he⟩ := List.mem_map.1 hm
        exact (hb d hd).2 he
      · rintro ⟨⟨-, hne⟩, ⟨hc, hnd⟩, -, hb⟩
        refine ⟨hne, hnd, fun d hd => ⟨hb d hd, ?_⟩⟩
        intro he
        exact hc (List.mem_map.2 ⟨d, hd, he⟩)

theorem decodeHeader_eq_ok_iff {line : Text} {columns : List Text} :
    decodeHeader line = .ok columns ↔ columns = Text.pieces '\t' line ∧
      Name.isId (columns.headD []) ∧ (∀ c ∈ columns, c ≠ []) ∧ (columns.map Text.lower).Nodup := by
  unfold decodeHeader
  simp only
  split
  · next h =>
    rw [Except.map_eq_ok_iff]
    constructor
    · rintro ⟨⟨⟩, hc, rfl⟩
      obtain ⟨hne, hnd, -⟩ := checkHeader_eq_ok_iff.1 hc
      exact ⟨rfl, h, hne, hnd⟩
    · rintro ⟨rfl, -, hne, hnd⟩
      exact ⟨(), checkHeader_eq_ok_iff.2 ⟨hne, hnd, by simp⟩, rfl⟩
  · next h =>
    simp only [reduceCtorEq, false_iff]
    rintro ⟨rfl, hid, -⟩
    exact h hid

theorem mem_of_mem_fields {line f : Text} (hf : f ∈ fields line) {c : Char} (hc : c ∈ f) :
    c ∈ line ∧ c ≠ '\t' := by
  obtain ⟨hm, ht⟩ := Text.mem_of_mem_pieces hf hc
  refine ⟨?_, ht⟩
  exact List.mem_reverse.1 ((List.dropWhile_suffix _).subset (List.mem_reverse.1 hm))

theorem mem_of_mem_lines {t l : Text} (hl : l ∈ lines t) {c : Char} (hc : c ∈ l) :
    c ∈ t ∧ c ≠ '\n' := by
  refine Text.mem_of_mem_pieces ?_ hc
  unfold lines at hl
  simp only at hl
  split at hl
  · exact (List.dropLast_sublist _).subset hl
  · exact hl

theorem fitsField_iff {t : Text} :
    t.fitsField ↔ ∀ c ∈ t, c ≠ '\t' ∧ c ≠ '\r' ∧ c ≠ '\n' := by
  simp [Text.fitsField, and_assoc]

theorem LineHolds.soundRow {width : Nat} {line : Text} {row : Row} (h : LineHolds width line row)
    (hl : ∀ c ∈ line, c ≠ '\r' ∧ c ≠ '\n') : SoundRow width row := by
  obtain ⟨f, fs, hfs⟩ : ∃ f fs, fields line = f :: fs := Text.exists_pieces_eq_cons _ _
  have hd := h.digits
  have hs := h.short
  have hw := h.count
  have hr := h.row_eq
  simp only [hfs, List.headD_cons, List.tail_cons] at hd hs hr
  subst hr
  refine ⟨by simpa [hfs] using hw, by simp, ?_, ?_⟩
  · rw [rowId_cons, Text.toNat_ofNat]
    exact Nat.le_trans (Text.length_ofNat_toNat_le hd.1 hd.2) hs
  · intro v hv
    rcases List.mem_cons.1 hv with rfl | hv
    · exact isStored_id _
    · obtain ⟨g, hg, rfl⟩ := List.mem_map.1 hv
      refine Value.isStored_ofField (fitsField_iff.2 fun c hc => ?_)
      obtain ⟨hm, ht⟩ := mem_of_mem_fields (hfs ▸ List.mem_cons_of_mem f hg) hc
      exact ⟨ht, (hl c hm).1, (hl c hm).2⟩

theorem le_foldl_max (ns : List Nat) (n : Nat) :
    n ≤ ns.foldl max n ∧ ∀ m ∈ ns, m ≤ ns.foldl max n := by
  induction ns generalizing n with
  | nil => simp
  | cons k ns ih =>
    obtain ⟨h₁, h₂⟩ := ih (max n k)
    refine ⟨by simp only [List.foldl_cons]; omega, ?_⟩
    intro m hm
    rcases List.mem_cons.1 hm with rfl | hm
    · simp only [List.foldl_cons]; omega
    · exact h₂ m hm

/-- The following id is one more than the largest, or one if there is none. -/
theorem followingId_eq (rows : List Row) :
    followingId rows = ((rows.map rowId).max?.elim 1 (· + 1)) := by
  unfold followingId
  cases h : rows.map rowId with
  | nil => rfl
  | cons n ns =>
    rw [List.max?_cons', List.foldl_cons, Nat.zero_max]
    rfl

theorem followingId_le {rows : List Row} {n : Nat} (hpos : 0 < n)
    (h : ∀ row ∈ rows, rowId row < n) : followingId rows ≤ n := by
  rw [followingId_eq]
  cases hm : (rows.map rowId).max? with
  | none => exact hpos
  | some m =>
    obtain ⟨row, hrow, rfl⟩ := List.mem_map.1 (List.max?_mem hm)
    exact h row hrow

theorem rowId_lt_followingId {rows : List Row} {row : Row} (h : row ∈ rows) :
    rowId row < followingId rows :=
  Nat.lt_succ_of_le ((le_foldl_max _ 0).2 _ (List.mem_map_of_mem h))

/-- What a text without carriage returns holds is a sound table. -/
theorem Holds.sound {text : Text} {t : Table} (h : Holds text t.columns t.rows)
    (hcr : '\r' ∉ text) (hn : followingId t.rows ≤ t.nextId) : t.Sound := by
  obtain ⟨line, hl, hc⟩ := h.header
  obtain ⟨hcols, hid, hne, hnd⟩ := decodeHeader_eq_ok_iff.1 hc
  have hline : line ∈ lines text := List.mem_of_mem_head? (by rw [hl]; rfl)
  have hnocr : ∀ l ∈ lines text, ∀ c ∈ l, c ≠ '\r' ∧ c ≠ '\n' := by
    intro l hl c hc
    obtain ⟨hm, hn⟩ := mem_of_mem_lines hl hc
    exact ⟨fun he => hcr (he ▸ hm), hn⟩
  refine ⟨hid, ?_, hnd, ?_, ?_, h.ids_distinct, ?_, ?_⟩
  · intro c hm
    cases hcs : t.columns with
    | nil => simp [hcs] at hm
    | cons d ds =>
      simp only [hcs, List.tail_cons, List.headD_cons, List.map_cons, List.nodup_cons] at hm hid hnd
      rw [Bool.eq_false_iff]
      intro hc
      refine hnd.1 (List.mem_map.2 ⟨c, hm, ?_⟩)
      rw [beq_iff_eq.1 hc, beq_iff_eq.1 hid]
  · intro c hm
    refine ⟨hne c hm, fitsField_iff.2 fun d hd => ?_⟩
    obtain ⟨hdl, hdt⟩ := Text.mem_of_mem_pieces (hcols ▸ hm) hd
    exact ⟨hdt, hnocr line hline d hdl⟩
  · intro row hm
    obtain ⟨l, hl, hr⟩ := exists_of_mem_right h.body hm
    exact hr.soundRow (hnocr l (List.mem_of_mem_tail hl))
  · intro row hm
    exact Nat.lt_of_lt_of_le (rowId_lt_followingId hm) hn
  · exact Nat.lt_of_lt_of_le (Nat.succ_pos _) hn

end Tabular.Table
