import Tabular.Join
import Tabular.Proofs.Condition.Texts
import Tabular.Proofs.Table.Operations
import Tabular.Proofs.Table.Reading
import Tabular.Proofs.Text.Word

/-!
# Texts of tables

The columns and cells of a sound table are within one line each, so that what it shows is, and so is
what goes wrong with it if the operation is about texts within one line itself. What goes wrong with
a file is told with its path and with texts that are within one line.
-/

namespace Tabular

open Except

/-! ## Names -/

namespace Text

theorem oneLine_of_fitsField {t : Text} (h : t.fitsField) : t.OneLine := fun hm =>
  (Table.fitsField_iff.1 h _ hm).2.2 rfl

/-- A line break has no other letter case. -/
theorem lineBreak_mem_lower {t : Text} (h : '\n' ∈ t) : '\n' ∈ lower t :=
  mem_lower (by decide) (by decide) h

theorem OneLine.of_lower {t : Text} (h : (lower t).OneLine) : t.OneLine := fun hm =>
  h (lineBreak_mem_lower hm)

end Text

theorem Name.oneLine_of_isPlain {n : Text} (h : isPlain n) : n.OneLine :=
  Text.oneLine_of_fitsField (Table.fitsField_of_isPlain h).2

theorem Name.IsWord.oneLine {n : Text} (h : IsWord n) : n.OneLine := oneLine_of_isPlain h.plain

theorem Name.IsWord.lower_oneLine {n : Text} (h : IsWord n) : (Text.lower n).OneLine :=
  h.small.symm ▸ h.oneLine

namespace Table

variable {Q : Text → Prop} {t : Table} {column : Text} {condition : Option Condition}
  {rows : List Row}

/-- A sound table whose name is within one line. -/
structure Plain (t : Table) : Prop extends t.Sound where
  name_line : t.name.OneLine

theorem Sound.row_line (ht : t.Sound) {row : Row} (hrow : row ∈ t.rows) : Row.OneLine row :=
  fun v hv => Text.oneLine_of_fitsField ((ht.rows row hrow).cells v hv).fits

theorem Sound.column_line (ht : t.Sound) {c : Text} (hc : c ∈ t.columns) : c.OneLine :=
  Text.oneLine_of_fitsField (ht.columns_fit c hc).2

/-! ## Columns -/

/-- The place at which a column is found is one of that name. -/
theorem index_gives (hn : t.name.OneLine) (hc : column.OneLine) : (t.index column).Gives
    (fun i => Text.lower (t.columns.getD i []) = Text.lower column) Failure.Tidy := by
  unfold index Name.resolve
  split
  · next i hi =>
    obtain ⟨hlt, hi, -⟩ := List.findIdx?_eq_some_iff_getElem.1 hi
    change Text.lower (t.columns.getD i []) = Text.lower column
    simpa [List.getD_eq_getElem?_getD, hlt] using hi
  · apply Failure.tidy_of_oneLine
    exact List.forall_mem_cons.2 ⟨hc, List.forall_mem_singleton.2 hn⟩

theorem checkNew_gives (action : ColumnAction) (columns : List Text) (hc : Name.isPlain column) :
    (checkNew action columns column).Gives (fun _ => True) fun e => ∀ u ∈ e.texts, u.OneLine := by
  have hline := Name.oneLine_of_isPlain hc
  have hvalid : (Name.validate "column" column).Gives (fun _ => True)
      fun e => ∀ u ∈ e.texts, u.OneLine := by
    unfold Name.validate
    split
    · exact List.forall_mem_singleton.2 (by decide)
    · split
      · exact List.forall_mem_cons.2 ⟨by decide, List.forall_mem_singleton.2 hline⟩
      · trivial
  refine hvalid.bind fun _ _ => ?_
  split
  · exact nofun
  · split
    · exact List.forall_mem_singleton.2 hline
    · trivial

theorem create_gives (name : Text) {columns : List Text} (h : ∀ c ∈ columns, Name.isPlain c) :
    (create name columns).Gives (fun _ => True) fun e => ∀ u ∈ e.texts, u.OneLine := by
  have hcheck (before : List Text) : (checkColumns before columns).Gives (fun _ => True)
      fun e => ∀ u ∈ e.texts, u.OneLine := by
    induction columns generalizing before with
    | nil => trivial
    | cons c cs ih =>
      obtain ⟨hc, hcs⟩ := List.forall_mem_cons.1 h
      exact (checkNew_gives .create before hc).bind fun _ _ => ih hcs _
  exact (hcheck []).bind fun _ _ => trivial

theorem addColumn_gives (t : Table) (hc : Name.isPlain column) :
    (t.addColumn column).Gives (fun _ => True) Failure.Tidy := by
  have hcheck : ((checkNew .add t.columns column).mapError Failure.rejected).Gives (fun _ => True)
      Failure.Tidy := gives_mapError.2 ((checkNew_gives .add t.columns hc).mono (fun _ h => h)
        fun _ h => Failure.tidy_of_oneLine h)
  exact hcheck.bind fun _ _ => trivial

theorem dropColumn_gives (hn : t.name.OneLine) (hc : column.OneLine) :
    (t.dropColumn column).Gives (fun _ => True) Failure.Tidy := by
  unfold dropColumn
  split
  · exact Failure.tidy_of_oneLine nofun
  · exact (index_gives hn hc).bind fun _ _ => trivial

/-! ## Rows -/

theorem stored_gives (v : Value) : (stored v).Gives (fun _ => True) Failure.Tidy := by
  unfold stored
  split
  · exact Failure.tidy_of_oneLine nofun
  · trivial

theorem storedAll_gives (vs : List Value) :
    (storedAll vs).Gives (fun _ => True) Failure.Tidy := by
  induction vs with
  | nil => trivial
  | cons v vs ih => exact (stored_gives v).bind fun _ _ => ih.bind fun _ _ => trivial

theorem insert_gives (t : Table) (values : List Value) :
    (t.insert values).Gives (fun _ => True) Failure.Tidy := by
  unfold insert
  split
  · exact Failure.tidy_of_oneLine nofun
  · exact (storedAll_gives values).bind fun _ _ =>
      (Condition.gives_number _).bind fun _ _ => trivial

theorem accepted_gives {p : Predicate} (hp : Condition.Judges Q p)
    (h : ∀ row ∈ rows, Row.OneLine row) :
    (accepted p rows).Gives (fun keep => ∀ row ∈ keep, Row.OneLine row) (Failure.Tells Q) := by
  induction rows with
  | nil => exact nofun
  | cons row rows ih =>
    obtain ⟨hrow, hrows⟩ := List.forall_mem_cons.1 h
    refine (hp row hrow).bind fun yes _ => (ih hrows).bind fun rest hrest => ?_
    cases yes with
    | true => exact List.forall_mem_cons.2 ⟨hrow, hrest⟩
    | false => exact hrest

theorem verdicts_gives {p : Predicate} (hp : Condition.Judges Q p)
    (h : ∀ row ∈ rows, Row.OneLine row) :
    (verdicts p rows).Gives (fun _ => True) (Failure.Tells Q) := by
  induction rows with
  | nil => trivial
  | cons row rows ih =>
    obtain ⟨hrow, hrows⟩ := List.forall_mem_cons.1 h
    exact (hp row hrow).bind fun _ _ => (ih hrows).bind fun _ _ => trivial

theorem targets_gives (hn : t.name.OneLine) (before : List (Nat × Value))
    {assignments : List (Text × Value)} (h : ∀ a ∈ assignments, a.1.OneLine) :
    (t.targets before assignments).Gives (fun _ => True) Failure.Tidy := by
  induction assignments generalizing before with
  | nil => trivial
  | cons a rest ih =>
    obtain ⟨column, v⟩ := a
    obtain ⟨hc, hrest⟩ := List.forall_mem_cons.1 h
    unfold targets
    split
    · exact Failure.tidy_of_oneLine (List.forall_mem_nil _)
    · refine (index_gives hn hc).bind fun i _ => ?_
      split
      · exact Failure.tidy_of_oneLine (List.forall_mem_singleton.2 hc)
      · exact (stored_gives v).bind fun _ _ => ih _ hrest

section Conditions

variable (hQ : ∀ t : Text, t.OneLine → Q t)
include hQ

theorem select_gives (ht : t.Sound) (hc : ∀ c ∈ condition, c.Tells Q) : (t.select condition).Gives
    (fun keep => ∀ row ∈ keep, Row.OneLine row) (Failure.Tells Q) :=
  (Condition.bindOptional_gives hQ t.columns hc).bind fun _ hp =>
    accepted_gives hp fun _ => ht.row_line

theorem delete_gives (ht : t.Sound) (hc : ∀ c ∈ condition, c.Tells Q) :
    (t.delete condition).Gives (fun _ => True) (Failure.Tells Q) := by
  refine (Condition.bindOptional_gives hQ t.columns hc).bind fun p hp => ?_
  have hnot : Condition.Judges Q fun row => (p row).map (! ·) := fun row hrow =>
    gives_map.2 (hp row hrow)
  exact (accepted_gives hnot fun _ => ht.row_line).bind fun _ _ => trivial

theorem update_gives (ht : t.Plain) (hc : ∀ c ∈ condition, c.Tells Q)
    {assignments : List (Text × Value)} (h : ∀ a ∈ assignments, a.1.OneLine) :
    (t.update condition assignments).Gives (fun _ => True) (Failure.Tells Q) :=
  (Condition.gives_tells hQ (targets_gives ht.name_line [] h)).bind fun _ _ =>
    (Condition.bindOptional_gives hQ t.columns hc).bind fun _ hp =>
      (verdicts_gives hp fun _ => ht.row_line).bind fun _ _ => trivial

end Conditions

/-! ## What is shown -/

/-- A header and rows that are shown in a line each. If the header is a single name, it is that of a
column whose small letters make a word. -/
structure Legible (header : List Text) (rows : List Row) : Prop where
  names_line : ∀ c ∈ header, c.OneLine
  single_plain : ∀ c, header = [c] → Name.isPlain (Text.lower c)
  rows_line : ∀ row ∈ rows, Row.OneLine row

theorem Legible.nil : Legible [] [] := ⟨nofun, nofun, nofun⟩

theorem indexes_gives (hn : t.name.OneLine) {names : List Text}
    (h : ∀ c ∈ names, Name.isPlain c) : (t.indexes names).Gives
      (fun is => ∀ i ∈ is, Name.isPlain (Text.lower (t.columns.getD i []))) Failure.Tidy := by
  induction names with
  | nil => exact nofun
  | cons c cs ih =>
    obtain ⟨hc, hcs⟩ := List.forall_mem_cons.1 h
    refine (index_gives hn (Name.oneLine_of_isPlain hc)).bind fun i hi =>
      (ih hcs).bind fun is his => List.forall_mem_cons.2 ⟨?_, his⟩
    rw [hi]
    exact (Name.isWord_lower hc).plain

theorem project_gives (ht : t.Plain) (hrows : ∀ row ∈ rows, Row.OneLine row)
    {columns : Option (List Text)} (h : ∀ cs ∈ columns, ∀ c ∈ cs, Name.isPlain c) :
    (t.project rows columns).Gives (fun r => Legible r.1 r.2) Failure.Tidy := by
  cases columns with
  | none =>
    refine ⟨fun c => ht.column_line, fun c hc => ?_, hrows⟩
    have hid := ht.id_first
    rw [show t.columns = [c] from hc, List.headD_cons, Name.isId, beq_iff_eq] at hid
    rw [hid]
    decide
  | some names =>
    refine (indexes_gives ht.name_line (h names rfl)).bind fun is his => ?_
    have hname (c : Text) (hc : c ∈ is.map (t.columns.getD · [])) :
        Name.isPlain (Text.lower c) := by
      obtain ⟨i, hi, rfl⟩ := List.mem_map.1 hc
      exact his i hi
    refine ⟨fun c hc => ?_, fun c (hc : is.map _ = [c]) => hname c ?_, fun row hrow => ?_⟩
    · exact Text.OneLine.of_lower (Name.oneLine_of_isPlain (hname c hc))
    · exact hc ▸ List.mem_singleton_self c
    · obtain ⟨old, hold, rfl⟩ := List.mem_map.1 hrow
      intro v hv
      obtain ⟨i, -, rfl⟩ := List.mem_map.1 hv
      exact Condition.oneLine_getD (hrows old hold) i

/-! ## Files -/

theorem checkHeader_gives (before : List Text) {columns : List Text}
    (h : ∀ c ∈ columns, c.OneLine) :
    (checkHeader before columns).Gives (fun _ => True) fun e => ∀ u ∈ e.texts, u.OneLine := by
  induction columns generalizing before with
  | nil => trivial
  | cons c cs ih =>
    obtain ⟨hc, hcs⟩ := List.forall_mem_cons.1 h
    unfold checkHeader
    split
    · exact List.forall_mem_singleton.2 hc
    · exact ih _ hcs

theorem oneLine_headD {ts : List Text} (h : ∀ u ∈ ts, u.OneLine) : (ts.headD []).OneLine := by
  cases ts with
  | nil => exact Text.oneLine_nil
  | cons u us => exact h u List.mem_cons_self

theorem decodeHeader_gives {line : Text} (h : line.OneLine) :
    (decodeHeader line).Gives (fun _ => True) fun e => ∀ u ∈ e.texts, u.OneLine := by
  have hpieces : ∀ u ∈ Text.pieces '\t' line, u.OneLine := fun u hu =>
    h.subset fun _ hc => (Text.mem_of_mem_pieces hu hc).1
  unfold decodeHeader
  dsimp only
  split
  · exact gives_map.2 ((checkHeader_gives [] hpieces).mono (fun _ _ => trivial) fun _ h => h)
  · exact List.forall_mem_singleton.2 (oneLine_headD hpieces)

theorem decodeRows_gives (path : Text) (width line : Nat) (seen : List Nat) {ls : List Text}
    (h : ∀ l ∈ ls, l.OneLine) :
    (decodeRows path width line seen ls).Gives (fun _ => True) Failure.Tidy := by
  have hfault {fault : FileFault} (hf : ∀ u ∈ fault.texts, u.OneLine) :
      Failure.Tidy (.rejected (.malformedFile path fault)) := Failure.tidy_malformedFile hf
  induction ls generalizing line seen with
  | nil => trivial
  | cons l ls ih =>
    obtain ⟨hl, hls⟩ := List.forall_mem_cons.1 h
    have hfields : ∀ u ∈ fields l, u.OneLine := fun u hu =>
      hl.subset fun _ hc => (mem_of_mem_fields hu hc).1
    have hid : (decodeId path line ((fields l).headD [])).Gives (fun _ => True) Failure.Tidy := by
      unfold decodeId
      split
      · exact hfault (List.forall_mem_singleton.2 (oneLine_headD hfields))
      · exact Condition.gives_number _
    unfold decodeRows
    dsimp only
    split
    · exact hfault (List.forall_mem_nil _)
    · refine hid.bind fun id _ => ?_
      split
      · exact hfault (List.forall_mem_nil _)
      · exact (ih _ _ hls).bind fun _ _ => trivial

/-- A file that cannot be read as a table is reported with texts of its lines. -/
theorem decode_gives (name text path : Text) :
    (decode name text path).Gives (fun _ => True) Failure.Tidy := by
  have hline : ∀ l ∈ lines text, l.OneLine := fun l hl hm => (mem_of_mem_lines hl hm).2 rfl
  unfold decode
  split
  · exact Failure.tidy_malformedFile nofun
  · exact Failure.tidy_malformedFile nofun
  · next header body _ h =>
    rw [h] at hline
    obtain ⟨hheader, hbody⟩ := List.forall_mem_cons.1 hline
    have hcolumns : ((decodeHeader header).mapError fun f =>
        (Rejection.malformedFile path f : Failure)).Gives (fun _ => True) Failure.Tidy :=
      gives_mapError.2 ((decodeHeader_gives hheader).mono (fun _ h => h)
        fun _ h => Failure.tidy_malformedFile h)
    exact hcolumns.bind fun columns _ =>
      (decodeRows_gives path columns.length 2 [] hbody).bind fun _ _ => trivial

end Table

/-! ## Joins -/

namespace Join

variable {left right : List Row}

theorem partners_gives (key : Value) (place : Nat) (h : ∀ row ∈ right, Row.OneLine row) :
    (partners key place right).Gives (fun these => ∀ row ∈ these, Row.OneLine row)
      Failure.Tidy := by
  induction right with
  | nil => exact nofun
  | cons row rows ih =>
    obtain ⟨hrow, hrows⟩ := List.forall_mem_cons.1 h
    refine (Condition.gives_number _).bind fun yes _ => (ih hrows).bind fun rest hrest => ?_
    cases yes with
    | true => exact List.forall_mem_cons.2 ⟨hrow, hrest⟩
    | false => exact hrest

theorem pairs_gives (i j : Nat) (hl : ∀ row ∈ left, Row.OneLine row)
    (hr : ∀ row ∈ right, Row.OneLine row) : (pairs left i right j).Gives
      (fun rows => ∀ row ∈ rows, Row.OneLine row) Failure.Tidy := by
  induction left with
  | nil => exact nofun
  | cons row rows ih =>
    obtain ⟨hrow, hrows⟩ := List.forall_mem_cons.1 hl
    refine (partners_gives _ j hr).bind fun these hthese => (ih hrows).bind fun rest hrest => ?_
    intro joined hjoined
    obtain hjoined | hjoined := List.mem_append.1 hjoined
    · obtain ⟨other, hother, rfl⟩ := List.mem_map.1 hjoined
      intro v hv
      obtain hv | hv := List.mem_append.1 hv
      · exact hrow v (List.mem_of_mem_tail hv)
      · exact hthese other hother v (List.mem_of_mem_tail hv)
    · exact hrest joined hjoined

theorem numbered_line (n : Nat) {rows : List Row} (h : ∀ row ∈ rows, Row.OneLine row) :
    ∀ row ∈ numbered n rows, Row.OneLine row := by
  induction rows generalizing n with
  | nil => exact nofun
  | cons row rows ih =>
    obtain ⟨hrow, hrows⟩ := List.forall_mem_cons.1 h
    refine List.forall_mem_cons.2 ⟨?_, ih (n + 1) hrows⟩
    exact List.forall_mem_cons.2 ⟨Text.oneLine_ofNat n, hrow⟩

theorem qualified_line {t : Table} (ht : t.Plain) : ∀ c ∈ qualified t, c.OneLine := by
  intro c hc
  obtain ⟨d, hd, rfl⟩ := List.mem_map.1 hc
  have hline := ht.column_line (List.mem_of_mem_tail hd)
  simp [ht.name_line, hline]

theorem join_gives {l r : Table} (hl : l.Plain) (hr : r.Plain) {leftColumn rightColumn : Text}
    (hlc : leftColumn.OneLine) (hrc : rightColumn.OneLine) :
    (join l r leftColumn rightColumn).Gives (fun shown => Table.Legible shown.1 shown.2)
      Failure.Tidy := by
  refine (Table.index_gives hl.name_line hlc).bind fun i _ =>
    (Table.index_gives hr.name_line hrc).bind fun j _ =>
      (pairs_gives i j (fun _ => hl.row_line) fun _ => hr.row_line).bind fun rows hrows => ?_
  refine ⟨List.forall_mem_cons.2 ⟨by decide, ?_⟩, fun c hc => ?_, numbered_line 1 hrows⟩
  · exact List.forall_mem_append.2 ⟨qualified_line hl, qualified_line hr⟩
  · cases (List.cons.inj hc).1
    decide

end Join

end Tabular
