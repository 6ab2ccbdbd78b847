import Tabular.Proofs.Table.Rows
import Tabular.Proofs.Value.Order

/-!
# Texts that are found

A text is stored as whatever it is read as in a file, while a text in quotes stays a string. The two
stand for the same in comparisons unless the text is the word for null. So a row that a text was
stored in is found by that text: after the row is inserted, and after every row is given the text.
-/

namespace Tabular

namespace Value

variable {v w : Value} {s : Text}

theorem isRead_string (s : Text) : (string s).IsRead :=
  .inr ⟨['\''] ++ s ++ ['\''], by simp [ofLiteral, unquote?]⟩

theorem IsStored.isRead (h : v.IsStored) : v.IsRead := .inl ⟨v.text, h.typed.symm⟩

theorem isNull_ofField (s : Text) : (ofField s).isNull = decide (s = Keyword.NULL.text) := by
  unfold ofField
  split_ifs with h <;> simp [h, null, boolean, string, isNull]

/-- Of values that were read, the text tells what they stand for, and whether they are null. -/
theorem IsRead.sense_congr (hv : v.IsRead) (hw : w.IsRead) (htext : v.text = w.text)
    (hnull : v.isNull = w.isNull) : v.sense = w.sense := by
  rw [sense, sense, hnull, hv.number?_eq, hw.number?_eq, htext]

/-- The word for null alone is stored as something that it does not stand for in quotes. -/
theorem sense_ofField_eq_iff :
    (ofField s).sense = (string s).sense ↔ s ≠ Keyword.NULL.text := by
  constructor
  · rintro h rfl
    exact absurd h (by decide)
  · intro hs
    refine IsRead.sense_congr (.inl ⟨s, rfl⟩) (isRead_string s) (by simp [string]) ?_
    rw [isNull_ofField, decide_eq_false hs]
    rfl

end Value

namespace Table

variable {t new : Table} {a s : Text} {row : Row} {i : Nat}

/-- Does the row have in this place what the text stands for? -/
def finds (i : Nat) (s : Text) (row : Row) : Bool :=
  decide ((row.getD i Value.null).sense = (Value.string s).sense)

theorem finds_iff_of_getElem? (h : row[i]? = some (Value.ofField s)) :
    finds i s row ↔ s ≠ Keyword.NULL.text := by
  rw [finds, List.getD_eq_getElem?_getD, h, Option.getD_some, decide_eq_true_iff,
    Value.sense_ofField_eq_iff]

theorem SoundRow.isRead_getD {n : Nat} (h : SoundRow n row) (i : Nat) :
    (row.getD i Value.null).IsRead := by
  rw [List.getD_eq_getElem?_getD]
  cases hv : row[i]? with
  | none => exact Value.isStored_null.isRead
  | some v => exact (h.cells v (List.mem_of_getElem? hv)).isRead

/-- Rows without an integer of too many digits in the column are all compared with the text. -/
theorem Sound.select_finds (ht : t.Sound) (hi : Name.find? t.columns a = some i)
    (hs : ¬ Numeral.Overlong s)
    (hrows : ∀ row ∈ t.rows, ¬ Numeral.Overlong (row.getD i Value.null).text) :
    t.select (some (.compare a .eq (.string s))) = .ok (t.rows.filter (finds i s)) := by
  let p : Predicate := fun row => Condition.test .eq (row.getD i Value.null) (.string s)
  have hb : Condition.bindOptional t.columns (some (.compare a .eq (.string s))) = .ok p := by
    rw [Condition.bindOptional, Condition.bind, Condition.bindCompare, Name.resolve_eq_ok_iff.2 hi]
    rfl
  have hp : ∀ row ∈ t.rows, p row = .ok (finds i s row) := fun row hrow =>
    Condition.test_eq ⟨(ht.rows row hrow).isRead_getD i, hrows row hrow⟩
      ⟨Value.isRead_string s, hs⟩
  rw [select_eq hb fun row hrow => ⟨_, hp row hrow⟩, matching]
  refine congrArg Except.ok (List.filter_congr fun row hrow => ?_)
  rw [Predicate.holds, hp row hrow]

/-- The table with what a text is stored as in the column after the id, in every row. -/
def filled (t : Table) (s : Text) : Table :=
  { t with rows := t.rows.map (·.set 1 (Value.ofField s)) }

theorem filled_of_nil (h : t.rows = []) : t.filled s = t := by
  cases t
  cases h
  rfl

section OneColumn

variable (ht : t.Sound) (hc : t.columns.tail = [a])
include ht hc

theorem Sound.find?_only : Name.find? t.columns a = some 1 := by
  obtain ⟨c, hcolumns⟩ : ∃ c, t.columns = [c, a] := by
    cases h : t.columns with
    | nil => simp [h] at hc
    | cons c cs => exact ⟨c, by rw [← hc, h]; rfl⟩
  have hne : Text.lower c ≠ Text.lower a := by
    have hd := ht.columns_distinct
    simp only [hcolumns, List.map_cons, List.map_nil, List.nodup_cons, List.mem_singleton] at hd
    exact hd.1
  simp [Name.find?, hcolumns, List.findIdx?_cons, hne]

/-- A row that a text is inserted with is found by the text. -/
theorem Sound.select_inserted (hfit : s.fitsField) (hs : ¬ Numeral.Overlong s)
    (hrows : ∀ row ∈ t.rows, ¬ Numeral.Overlong (row.getD 1 Value.null).text)
    (h : t.insert [.string s] = .ok (row, new)) :
    new.columns = t.columns ∧ row.map (·.text) = [Text.ofNat t.nextId, s] ∧
      ∃ rows, new.select (some (.compare a .eq (.string s))) = .ok rows ∧
        (row ∈ rows ↔ s ≠ Keyword.NULL.text) := by
  have hlen : [s].length = t.columns.length - 1 := by rw [← List.length_tail, hc]; rfl
  have hnew : new.Sound := insert_sound ht h
  obtain ⟨-, -, -, hshort, -, hmade⟩ := insert_eq_ok h
  obtain ⟨_, _, hins, hmem, htexts⟩ := insert_texts hlen (by simpa using hfit) hshort
  cases h.symm.trans hins
  have hcell : row[1]? = some (Value.ofField s) := by
    have htext : row[1]?.map (·.text) = some s := by rw [← List.getElem?_map, htexts]; rfl
    obtain ⟨v, hv, rfl⟩ := Option.map_eq_some_iff.1 htext
    rw [((hnew.rows row hmem).cells v (List.mem_of_getElem? hv)).typed, hv]
  have hshorts : ∀ r ∈ new.rows, ¬ Numeral.Overlong (r.getD 1 Value.null).text := by
    rw [hmade]
    refine List.forall_mem_append.2 ⟨hrows, List.forall_mem_singleton.2 ?_⟩
    simpa [List.getD_eq_getElem?_getD, hcell] using hs
  have hcolumns : new.columns = t.columns := by rw [hmade]
  refine ⟨hcolumns, htexts, _, hnew.select_finds (hcolumns ▸ ht.find?_only hc) hs hshorts, ?_⟩
  rw [List.mem_filter, finds_iff_of_getElem? hcell, and_iff_right hmem]

/-- When the column of every row is given a text, the text finds every row. -/
theorem Sound.update_filled (hfit : s.fitsField) (hs : ¬ Numeral.Overlong s) :
    t.update none [(a, .string s)] = .ok (t.rows.length, t.filled s) ∧
      (t.filled s).select (some (.compare a .eq (.string s))) =
        .ok (if s = Keyword.NULL.text then [] else (t.filled s).rows) := by
  have hi := ht.find?_only hc
  have hmem : a ∈ t.columns.tail := by simp [hc]
  have haim : t.Aims (a, .string s) (1, Value.ofField s) :=
    ⟨ht.id_once a hmem, index_eq_ok_iff.2 hi, stored_eq_ok_iff.2 ⟨hfit, rfl⟩⟩
  have htargets : t.targets [] [(a, .string s)] = .ok [(1, Value.ofField s)] :=
    targets_eq_ok_iff.2 ⟨_, rfl, .cons haim .nil, by simp, by simp⟩
  have hupdate : t.update none [(a, .string s)] = .ok (t.rows.length, t.filled s) := by
    have hjudges : Predicate.Judges (fun _ => .ok true) t.rows := fun _ _ => ⟨true, rfl⟩
    rw [update_eq htargets rfl hjudges]
    simp [matching, Predicate.holds, filled]
  have hcell : ∀ row ∈ (t.filled s).rows, row[1]? = some (Value.ofField s) := by
    refine List.forall_mem_map.2 fun row hrow => List.getElem?_set_self ?_
    rw [(ht.rows row hrow).width_eq]
    exact Name.find?_lt hi
  have hshort : ∀ row ∈ (t.filled s).rows, ¬ Numeral.Overlong (row.getD 1 Value.null).text :=
    fun row hrow => by simpa [List.getD_eq_getElem?_getD, hcell row hrow] using hs
  have hfinds (row : Row) (hrow : row ∈ (t.filled s).rows) := finds_iff_of_getElem? (hcell row hrow)
  refine ⟨hupdate, ?_⟩
  rw [(update_sound ht hupdate).select_finds hi hs hshort]
  split
  · next hnull => simpa [List.filter_eq_nil_iff, hnull] using hfinds
  · next hnull => simpa [List.filter_eq_self, hnull] using hfinds

end OneColumn

end Table

end Tabular
