import Tabular.Proofs.Join.Selecting

/-!
# Alterations of the columns

Columns are added at the end and dropped wherever they stand, found by name in any letter case.
After any series of such alterations a row holds, each under its name, the cells of the columns that
were there before and were not dropped, in their order, and after them a null for every column that
was added and is left. So a name that still refers to a column finds in every row what it found
before.
-/

namespace Tabular

/-- Where no two members have the same key, taking one out by its place takes out what has its
key. -/
theorem eraseIdx_eq_filter {α κ : Type} [DecidableEq κ] {f : α → κ} {as : List α} {i : Nat} {a : α}
    (hd : (as.map f).Nodup) (ha : as[i]? = some a) :
    as.eraseIdx i = as.filter fun b => f b ≠ f a := by
  induction as generalizing i with
  | nil => cases ha
  | cons b as ih =>
    rw [List.map_cons, List.nodup_cons] at hd
    cases i with
    | zero =>
      obtain rfl : b = a := by simpa using ha
      have hall : as.filter (fun c => f c ≠ f b) = as :=
        List.filter_eq_self.2 fun c hc => by
          simpa using fun he : f c = f b => hd.1 (he ▸ List.mem_map_of_mem hc)
      rw [List.eraseIdx_cons_zero, List.filter_cons_of_neg (by simp), hall]
    | succ i =>
      have ha : as[i]? = some a := by simpa using ha
      have hne : f b ≠ f a := fun he => hd.1 (he ▸ List.mem_map_of_mem (List.mem_of_getElem? ha))
      rw [List.eraseIdx_cons_succ, List.filter_cons_of_pos (by simpa using hne), ih hd.2 ha]

theorem eraseIdx_zip {α β : Type} (as : List α) (bs : List β) (i : Nat) :
    (as.eraseIdx i).zip (bs.eraseIdx i) = (as.zip bs).eraseIdx i := by
  induction as generalizing bs i with
  | nil => simp
  | cons a as ih =>
    cases bs with
    | nil => simp
    | cons b bs =>
      cases i with
      | zero => rfl
      | succ i => simp [ih]

namespace Table

/-- A change of the columns of a table. -/
inductive Alteration where
  | add (column : Text)
  | drop (column : Text)
  deriving DecidableEq, Repr

/-- The table with its columns changed. -/
def alter (t : Table) : Alteration → Except Failure Table
  | .add column => t.addColumn column
  | .drop column => t.dropColumn column

/-- The table after alterations that all succeed, one after the other. -/
def alterAll (t : Table) : List Alteration → Except Failure Table
  | [] => .ok t
  | a :: as => do
    let u ← t.alter a
    u.alterAll as

/-- Is a column of this name dropped, in whatever letter case? -/
def drops (as : List Alteration) (column : Text) : Bool :=
  as.any fun
    | .add _ => false
    | .drop name => Text.lower name == Text.lower column

/-- The columns that are added and not dropped afterwards. -/
def added : List Alteration → List Text
  | [] => []
  | .add column :: as => if drops as column then added as else column :: added as
  | .drop _ :: as => added as

/-- The cells of a row, each with the name of its column. -/
def named (t : Table) (row : Row) : List (Text × Value) := t.columns.zip row

/-- What alterations leave of named cells, and what they add. -/
def outlasting (as : List Alteration) (cells : List (Text × Value)) : List (Text × Value) :=
  cells.filter (fun cell => !drops as cell.1) ++ (added as).map (·, Value.null)

variable {t new : Table} {a : Alteration} {as : List Alteration} {row : Row} {column name : Text}
  {i j : Nat}

@[simp] theorem drops_nil (column : Text) : drops [] column = false := rfl

@[simp] theorem drops_add (column name : Text) : drops (.add name :: as) column = drops as column :=
  rfl

@[simp] theorem drops_drop (column name : Text) :
    drops (.drop name :: as) column = (Text.lower name == Text.lower column || drops as column) :=
  rfl

theorem drops_cons (a : Alteration) (as : List Alteration) (column : Text) :
    drops (a :: as) column = (drops [a] column || drops as column) := by
  cases a <;> simp

/-- Whether a column is dropped depends on its name in small letters. -/
theorem drops_congr (h : Text.lower column = Text.lower name) :
    drops as column = drops as name := by
  unfold drops
  rw [h]

/-- What a first alteration adds is left unless a later one drops it. -/
theorem added_cons (a : Alteration) (as : List Alteration) :
    added (a :: as) = (added [a]).filter (fun c => !drops as c) ++ added as := by
  cases a with
  | add column => cases h : drops as column <;> simp [added, h]
  | drop column => simp [added]

/-! ## What a name finds -/

/-- Does the name refer to the column? -/
def refersTo (name column : Text) : Bool := Text.lower column == Text.lower name

/-- The first cell that a name refers to. -/
def cell? (name : Text) (cells : List (Text × Value)) : Option Value :=
  (cells.find? fun cell => refersTo name cell.1).map Prod.snd

theorem getElem?_columns (hi : t.index name = .ok i) :
    t.columns[i]? = t.columns.find? (refersTo name) := by
  obtain ⟨hlt, href, hfirst⟩ := List.findIdx?_eq_some_iff_getElem.1 (index_eq_ok_iff.1 hi)
  rw [List.getElem?_eq_getElem hlt, eq_comm]
  exact List.find?_eq_some_iff_getElem.2
    ⟨href, i, hlt, rfl, fun j hj => by simpa [refersTo] using hfirst j hj⟩

/-- A name finds in a row the cell at the place of its column. -/
theorem getElem?_row (hi : t.index name = .ok i) (hrow : row.length = t.columns.length) :
    row[i]? = cell? name (t.named row) := by
  obtain ⟨hlt, href, hfirst⟩ := List.findIdx?_eq_some_iff_getElem.1 (index_eq_ok_iff.1 hi)
  have hfind : (t.named row).find? (fun cell => refersTo name cell.1) =
      some (t.columns[i], row[i]) := by
    refine List.find?_eq_some_iff_getElem.2 ⟨href, i, ?_, ?_, fun j hj => ?_⟩
    · simp [named, hrow, hlt]
    · simp [named]
    · simpa [named, refersTo] using hfirst j hj
  rw [cell?, hfind, List.getElem?_eq_getElem (hrow ▸ hlt)]
  rfl

theorem exists_index_of_find? {c : Text} (h : t.columns.find? (refersTo name) = some c) :
    ∃ i, t.index name = .ok i := by
  have hsome : (Name.find? t.columns name).isSome := by
    rw [Name.find?, List.findIdx?_isSome, List.any_eq_true]
    exact ⟨c, List.mem_of_find?_eq_some h, List.find?_some (p := refersTo name) h⟩
  obtain ⟨i, hi⟩ := Option.isSome_iff_exists.1 hsome
  exact ⟨i, index_eq_ok_iff.2 hi⟩

/-- What is found under a name that is not dropped is found among what outlasts the alterations. -/
theorem find?_filter_drops {α : Type} (f : α → Text) (cells : List α)
    (hname : drops as name = false) :
    (cells.filter fun c => !drops as (f c)).find? (fun c => refersTo name (f c)) =
      cells.find? fun c => refersTo name (f c) := by
  rw [List.find?_filter]
  congr 1
  funext c
  cases href : refersTo name (f c) with
  | false => simp
  | true => simp [drops_congr (beq_iff_eq.1 href), hname]

/-! ## One alteration -/

/-- What alterations make of a sound table: of its header, and of every row under the names of the
columns. -/
structure Altered (t new : Table) (as : List Alteration) : Prop where
  sound : new.Sound
  name_eq : new.name = t.name
  nextId_eq : new.nextId = t.nextId
  ids_eq : new.rows.map rowId = t.rows.map rowId
  columns_eq : new.columns = t.columns.filter (fun c => !drops as c) ++ added as
  rows_eq : new.rows.map new.named = t.rows.map fun row => outlasting as (t.named row)

theorem altered_add (ht : t.Sound) (h : t.addColumn column = .ok new) :
    t.Altered new [.add column] := by
  refine ⟨addColumn_sound ht h, ?_, ?_, map_rowId_eq (addColumn_rows ht h), ?_, ?_⟩
  all_goals obtain ⟨-, rfl⟩ := addColumn_eq_ok h
  · rfl
  · rfl
  · simp [added]
  · rw [List.map_map]
    refine List.map_congr_left fun row hrow => ?_
    have hzip : (t.columns ++ [column]).zip (row ++ [Value.null]) = _ :=
      List.zip_append (ht.rows row hrow).width_eq.symm
    simpa [named, outlasting, added] using hzip

/-- The names over a row are those of the columns. -/
theorem Sound.map_fst_named (ht : t.Sound) (hrow : row ∈ t.rows) :
    (t.named row).map Prod.fst = t.columns :=
  List.map_fst_zip (Nat.le_of_eq (ht.rows row hrow).width_eq.symm)

theorem altered_drop (ht : t.Sound) (h : t.dropColumn column = .ok new) :
    t.Altered new [.drop column] := by
  refine ⟨dropColumn_sound ht h, ?_, ?_, map_rowId_eq (dropColumn_rows ht h), ?_, ?_⟩
  all_goals
    obtain ⟨-, i, hi, rfl⟩ := dropColumn_eq_ok h
    obtain ⟨c, hc, he⟩ := (index_eq_ok_iff_refers ht.columns_distinct).1 hi
  · rfl
  · rfl
  · rw [eraseIdx_eq_filter ht.columns_distinct hc, he, added, added, List.append_nil]
    exact List.filter_congr fun d _ => by simp [eq_comm, beq_eq_decide]
  · rw [List.map_map]
    refine List.map_congr_left fun row hrow => ?_
    have hd : ((t.named row).map fun cell => Text.lower cell.1).Nodup := by
      have hd := ht.columns_distinct
      rwa [← ht.map_fst_named hrow, List.map_map] at hd
    have hlt : i < row.length := by
      rw [(ht.rows row hrow).width_eq]
      exact Name.find?_lt (index_eq_ok_iff.1 hi)
    have hcell : (t.named row)[i]? = some (c, row[i]) :=
      List.getElem?_zip_eq_some.2 ⟨hc, List.getElem?_eq_getElem hlt⟩
    rw [Function.comp_apply, named, eraseIdx_zip, outlasting, added, added, List.map_nil,
      List.append_nil]
    refine (eraseIdx_eq_filter hd hcell).trans (List.filter_congr fun cell _ => ?_)
    simp [he, eq_comm, beq_eq_decide]

/-- A column that was just added is found by any spelling of its name, and without it the table is
what it was. -/
theorem dropColumn_addColumn (ht : t.Sound) (h : t.addColumn column = .ok new)
    (hname : Text.lower name = Text.lower column) : new.dropColumn name = .ok t := by
  obtain ⟨hnew, rfl⟩ := addColumn_eq_ok h
  have hid : Name.isId name = false := by
    rw [Name.isId, hname]
    exact hnew.notId
  have hindex : index { t with
      columns := t.columns ++ [column], rows := t.rows.map (· ++ [Value.null]) } name =
        .ok t.columns.length := by
    have hnone : t.columns.findIdx? (fun c => Text.lower c == Text.lower name) = none := by
      refine List.findIdx?_eq_none_iff.2 fun c hc => ?_
      simpa [hname] using fun he : Text.lower c = Text.lower column =>
        hnew.fresh (he ▸ List.mem_map_of_mem hc)
    rw [index_eq_ok_iff, Name.find?, List.findIdx?_append, hnone]
    simp [hname]
  have hrows : (t.rows.map (· ++ [Value.null])).map (·.eraseIdx t.columns.length) = t.rows := by
    rw [List.map_map]
    refine (List.map_congr_left fun row hrow => ?_).trans (List.map_id _)
    rw [Function.comp_apply, ← (ht.rows row hrow).width_eq,
      List.eraseIdx_append_of_length_le (Nat.le_refl _)]
    simp
  rw [dropColumn, if_neg (by simp [hid])]
  refine (Except.bind_of_ok hindex _).trans ?_
  simp only [hrows, List.eraseIdx_append_of_length_le (Nat.le_refl _)]
  simp

/-! ## Series of alterations -/

/-- What outlasts the first alteration and then the others. -/
theorem filter_outlasting {α : Type} (f : α → Text) (more : Text → α) (hmore : ∀ c, f (more c) = c)
    (cells : List α) :
    (cells.filter (fun c => !drops [a] (f c)) ++ (added [a]).map more).filter
        (fun c => !drops as (f c)) ++ (added as).map more =
      cells.filter (fun c => !drops (a :: as) (f c)) ++ (added (a :: as)).map more := by
  have hand (c : α) : (!drops as (f c) && !drops [a] (f c)) = !drops (a :: as) (f c) := by
    rw [drops_cons a as, Bool.not_or, Bool.and_comm]
  rw [List.filter_append, List.filter_filter, List.filter_map, added_cons a as, List.map_append,
    List.append_assoc]
  simp only [hand, Function.comp_def, hmore]

theorem Altered.trans {u : Table} (h : t.Altered u [a]) (h' : u.Altered new as) :
    t.Altered new (a :: as) where
  sound := h'.sound
  name_eq := h'.name_eq.trans h.name_eq
  nextId_eq := h'.nextId_eq.trans h.nextId_eq
  ids_eq := h'.ids_eq.trans h.ids_eq
  columns_eq := by
    have hboth : (t.columns.filter (fun c => !drops [a] c) ++ added [a]).filter
        (fun c => !drops as c) ++ added as =
          t.columns.filter (fun c => !drops (a :: as) c) ++ added (a :: as) := by
      simpa using filter_outlasting id id (fun _ => rfl) t.columns
    rw [h'.columns_eq, h.columns_eq, hboth]
  rows_eq := by
    have hrest : new.rows.map new.named = (u.rows.map u.named).map (outlasting as) := by
      rw [h'.rows_eq, List.map_map]
      rfl
    rw [hrest, h.rows_eq, List.map_map]
    exact List.map_congr_left fun row _ =>
      filter_outlasting Prod.fst (·, Value.null) (fun _ => rfl) (t.named row)

theorem alterAll_altered (ht : t.Sound) (h : t.alterAll as = .ok new) : t.Altered new as := by
  induction as generalizing t with
  | nil =>
    cases h
    exact ⟨ht, rfl, rfl, rfl, by simp [added],
      List.map_congr_left fun row _ => by simp [outlasting, added]⟩
  | cons a as ih =>
    obtain ⟨u, hu, h⟩ := Except.bind_eq_ok_iff.1 h
    have hfirst : t.Altered u [a] := by
      cases a with
      | add column => exact altered_add ht hu
      | drop column => exact altered_drop ht hu
    exact hfirst.trans (ih hfirst.sound h)

/-- A name that is not dropped still refers to its column, and finds the same cell in every row. -/
theorem Altered.still_finds (h : t.Altered new as) (ht : t.Sound) (hi : t.index name = .ok i)
    (hname : drops as name = false) : ∃ j, new.index name = .ok j ∧
      new.columns[j]? = t.columns[i]? ∧ new.rows.map (·[j]?) = t.rows.map (·[i]?) := by
  have hcolumn := getElem?_columns hi
  obtain ⟨c, hc⟩ : ∃ c, t.columns[i]? = some c :=
    ⟨_, List.getElem?_eq_getElem (Name.find?_lt (index_eq_ok_iff.1 hi))⟩
  have hcolumns : new.columns.find? (refersTo name) = t.columns.find? (refersTo name) := by
    have hkept := find?_filter_drops id t.columns hname
    simp only [id_eq] at hkept
    rw [h.columns_eq, List.find?_append, hkept, ← hcolumn, hc]
    rfl
  obtain ⟨j, hj⟩ := exists_index_of_find? (hcolumns.trans (hcolumn.symm.trans hc))
  refine ⟨j, hj, by rw [getElem?_columns hj, hcolumns, hcolumn], ?_⟩
  have hcell (row : Row) (hrow : row ∈ t.rows) :
      cell? name (outlasting as (t.named row)) = row[i]? := by
    have hrow := (ht.rows row hrow).width_eq
    have hlt : i < row.length := hrow ▸ Name.find?_lt (index_eq_ok_iff.1 hi)
    have hfind := getElem?_row hi hrow
    rw [List.getElem?_eq_getElem hlt, cell?, eq_comm, Option.map_eq_some_iff] at hfind
    obtain ⟨cell, hfind, hv⟩ := hfind
    rw [cell?, outlasting, List.find?_append, find?_filter_drops Prod.fst _ hname, hfind,
      List.getElem?_eq_getElem hlt, ← hv]
    rfl
  calc new.rows.map (·[j]?)
      = (new.rows.map new.named).map (cell? name) := by
        rw [List.map_map]
        exact List.map_congr_left fun row hrow => getElem?_row hj (h.sound.rows row hrow).width_eq
    _ = t.rows.map (·[i]?) := by
        rw [h.rows_eq, List.map_map]
        exact List.map_congr_left hcell

/-- A name of a column that was added and is left refers to it, and finds null in every row. -/
theorem Altered.finds_added (h : t.Altered new as) (ht : t.Sound) (hc : column ∈ added as)
    (hname : Text.lower name = Text.lower column) : ∃ j, new.index name = .ok j ∧
      new.columns[j]? = some column ∧ ∀ row ∈ new.rows, row[j]? = some Value.null := by
  obtain ⟨k, hk⟩ := List.mem_iff_getElem?.1 hc
  let front := t.columns.filter fun c => !drops as c
  have hcolumn : new.columns[front.length + k]? = some column := by
    rw [h.columns_eq, List.getElem?_append_right (Nat.le_add_right _ _), Nat.add_sub_cancel_left,
      hk]
  refine ⟨front.length + k, ?_, hcolumn, fun row hrow => ?_⟩
  · exact (index_eq_ok_iff_refers h.sound.columns_distinct).2 ⟨column, hcolumn, hname.symm⟩
  · -- Over the row stand what outlasts of some old row and then the nulls.
    obtain ⟨old, hold, he⟩ := List.mem_map.1 (h.rows_eq ▸ List.mem_map_of_mem hrow)
    have hfront : ((t.named old).filter fun cell => !drops as cell.1).length = front.length := by
      have hmap : front = ((t.named old).filter fun cell => !drops as cell.1).map Prod.fst := by
        simp only [front, ← ht.map_fst_named hold]
        exact List.filter_map
      rw [hmap, List.length_map]
    have hcell : (new.named row)[front.length + k]? = some (column, Value.null) := by
      rw [← he, outlasting, List.getElem?_append_right (by omega), hfront, Nat.add_sub_cancel_left,
        List.getElem?_map, hk]
      rfl
    exact (List.getElem?_zip_eq_some.1 hcell).2

/-- Whatever columns are added to a sound table and dropped from it, its rows stay, with their ids,
and so does the next id. The columns that are not dropped keep their names, their order and their
cells, and after them come those that were added and are left, null in every row; so a name finds
what it found before as long as its column is not dropped. To add a column and drop it, by any
spelling of its name, changes nothing. -/
theorem alterations_spare_others {t new : Table} {as : List Alteration} (ht : t.Sound)
    (h : t.alterAll as = .ok new) :
    (new.Sound ∧ new.name = t.name ∧ new.nextId = t.nextId ∧
      new.rows.map rowId = t.rows.map rowId) ∧
    new.columns = t.columns.filter (fun c => !drops as c) ++ added as ∧
    new.rows.map new.named = t.rows.map (fun row =>
      (t.named row).filter (fun cell => !drops as cell.1) ++ (added as).map (·, Value.null)) ∧
    (∀ name i, t.index name = .ok i → drops as name = false → ∃ j, new.index name = .ok j ∧
      new.columns[j]? = t.columns[i]? ∧ new.rows.map (·[j]?) = t.rows.map (·[i]?)) ∧
    (∀ column ∈ added as, ∀ name, Text.lower name = Text.lower column →
      ∃ j, new.index name = .ok j ∧ new.columns[j]? = some column ∧
        ∀ row ∈ new.rows, row[j]? = some Value.null) ∧
    ∀ column name wider, t.addColumn column = .ok wider → Text.lower name = Text.lower column →
      wider.dropColumn name = .ok t := by
  have ha := alterAll_altered ht h
  exact ⟨⟨ha.sound, ha.name_eq, ha.nextId_eq, ha.ids_eq⟩, ha.columns_eq, ha.rows_eq,
    fun name i hi hname => ha.still_finds ht hi hname,
    fun column hc name hname => ha.finds_added ht hc hname,
    fun column name wider hadd hname => dropColumn_addColumn ht hadd hname⟩

/-- A column is dropped and added again between others; the cell of the last one moves to the front
and is found under its name. -/
theorem alterations_spare_others_of_returning :
    let t : Table := ⟨['t'], [Name.id, ['a'], ['B']],
      [[⟨.number, ['1']⟩, .string ['x'], .string ['y']]], 2⟩
    let as : List Alteration := [.add ['c'], .drop ['A'], .add ['a'], .drop ['C']]
    t.Sound ∧ ∃ new, t.alterAll as = .ok new ∧ new.columns = [Name.id, ['B'], ['a']] ∧
      ∃ j, new.index ['b'] = .ok j ∧ new.rows.map (·[j]?) = [some (.string ['y'])] := by
  intro t as
  have ho : Origin ⟨['t'], [Name.id, ['a'], ['B']], [], 1⟩ := .created ['t'] [['a'], ['B']] rfl
  have ht : t.Sound := afterAll_sound ho.sound [.insert [.string ['x'], .string ['y']]]
  have hrun : t.alterAll as = .ok _ := rfl
  obtain ⟨-, hcolumns, -, hfinds, -⟩ := alterations_spare_others ht hrun
  obtain ⟨j, hj, -, hcells⟩ := hfinds ['b'] 2 rfl (by decide)
  exact ⟨ht, _, rfl, hcolumns, j, hj, hcells⟩

end Table

end Tabular
