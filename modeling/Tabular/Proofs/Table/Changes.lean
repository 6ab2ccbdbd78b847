import Tabular.Proofs.Table.Operations
import Tabular.Proofs.Table.Writing

/-!
# The life of a table

A table begins its life new, or from the text of a file; then it is asked for changes, one after
the other, and a change that is rejected leaves it as it is. Every table in such a life is sound.
Rows keep their ids and their order for as long as they are there, and no id comes a second time.
The text of the table holds all of it but the next id.
-/

namespace Tabular.Table

/-- What a table can be asked for. -/
inductive Change where
  | insert (values : List Value)
  | update (condition : Option Condition) (assignments : List (Text × Value))
  | delete (condition : Option Condition)
  | addColumn (column : Text)
  | dropColumn (column : Text)

/-- The table with a change, or why it has none. -/
def attempt (t : Table) : Change → Except Failure Table
  | .insert values => (t.insert values).map (·.2)
  | .update condition assignments => (t.update condition assignments).map (·.2)
  | .delete condition => (t.delete condition).map (·.2)
  | .addColumn column => t.addColumn column
  | .dropColumn column => t.dropColumn column

/-- The table after it was asked for a change. -/
def after (t : Table) (c : Change) : Table :=
  match t.attempt c with
  | .ok new => new
  | .error _ => t

/-- The table after it was asked for changes, from left to right. -/
def afterAll (t : Table) (cs : List Change) : Table := cs.foldl after t

/-- A table that begins its life. -/
inductive Origin (t : Table) : Prop where
  | created (name : Text) (columns : List Text) (h : create name columns = .ok t)
  | read (name text path : Text) (hcr : '\r' ∉ text) (h : decode name text path = .ok t)

/-- What a change makes of the rows: a new row comes last, rows that change keep their ids and
places, and rows that stay when others go keep their order. -/
def Carries (t new : Table) : Change → Prop
  | .insert _ => ∃ cells, new.rows = t.rows ++ [⟨.number, Text.ofNat t.nextId⟩ :: cells]
  | .delete _ => new.rows.Sublist t.rows
  | .update _ _ | .addColumn _ | .dropColumn _ =>
    List.Forall₂ (fun row row' => row'.head? = row.head?) t.rows new.rows

@[simp] theorem afterAll_nil (t : Table) : t.afterAll [] = t := rfl

@[simp] theorem afterAll_append (t : Table) (cs ds : List Change) :
    t.afterAll (cs ++ ds) = (t.afterAll cs).afterAll ds := List.foldl_append

theorem after_of_ok {t new : Table} {c : Change} (h : t.attempt c = .ok new) : t.after c = new := by
  simp [after, h]

/-! ## Beginnings -/

/-- New columns that pass are fit for a header, after those before them. -/
theorem checkColumns_eq_ok {before columns : List Text} (h : checkColumns before columns = .ok ()) :
    (∀ c ∈ columns, Name.isPlain c ∧ Name.isId c = false ∧
      Text.lower c ∉ before.map Text.lower) ∧ (columns.map Text.lower).Nodup := by
  induction columns generalizing before with
  | nil => simp
  | cons c cs ih =>
    simp only [checkColumns, Except.bind_eq_ok_iff] at h
    obtain ⟨_, hc, h⟩ := h
    obtain ⟨hcs, hd⟩ := ih h
    have hn := newColumn_of_checkNew hc
    have hfresh : ∀ d ∈ cs, Text.lower d ∉ before.map Text.lower ∧ Text.lower d ≠ Text.lower c := by
      intro d hd
      have := (hcs d hd).2.2
      simp only [List.map_append, List.map_cons, List.map_nil, List.mem_append,
        List.mem_singleton, not_or] at this
      exact this
    constructor
    · intro d hd
      rcases List.mem_cons.1 hd with rfl | hd
      · exact ⟨hn.plain, hn.notId, hn.fresh⟩
      · exact ⟨(hcs d hd).1, (hcs d hd).2.1, (hfresh d hd).1⟩
    · rw [List.map_cons, List.nodup_cons]
      refine ⟨?_, hd⟩
      intro hm
      obtain ⟨d, hd, he⟩ := List.mem_map.1 hm
      exact (hfresh d hd).2 he

theorem create_eq_ok {name : Text} {columns : List Text} {t : Table}
    (h : create name columns = .ok t) :
    checkColumns [] columns = .ok () ∧ t = ⟨name, Name.id :: columns, [], 1⟩ := by
  simp only [create, Except.bind_eq_ok_iff, Except.pure_eq_ok_iff] at h
  obtain ⟨_, hc, rfl⟩ := h
  exact ⟨hc, rfl⟩

theorem create_sound {name : Text} {columns : List Text} {t : Table}
    (h : create name columns = .ok t) : t.Sound := by
  obtain ⟨hc, rfl⟩ := create_eq_ok h
  obtain ⟨hcols, hd⟩ := checkColumns_eq_ok hc
  have hself : Name.isId Name.id = true := by decide
  refine ⟨hself, fun c hc => (hcols c hc).2.1, ?_, ?_, ?_, List.nodup_nil, ?_, Nat.one_pos⟩
  · rw [List.map_cons, List.nodup_cons]
    refine ⟨?_, hd⟩
    intro hm
    obtain ⟨c, hc, he⟩ := List.mem_map.1 hm
    have hid : Name.isId c = Name.isId Name.id := by rw [Name.isId, Name.isId, he]
    rw [(hcols c hc).2.1, hself] at hid
    cases hid
  · intro c hm
    rcases List.mem_cons.1 hm with rfl | hm
    · decide
    · exact fitsField_of_isPlain (hcols c hm).1
  · intro row hm
    cases hm
  · intro row hm
    cases hm

theorem decode_sound {name text path : Text} {t : Table} (hcr : '\r' ∉ text)
    (h : decode name text path = .ok t) : t.Sound := by
  obtain ⟨hh, -, hn⟩ := decode_eq_ok_iff.1 h
  exact hh.sound hcr (Nat.le_of_eq hn.symm)

theorem Origin.sound {t : Table} (h : t.Origin) : t.Sound := by
  cases h with
  | created name columns h => exact create_sound h
  | read name text path hcr h => exact decode_sound hcr h

/-! ## One change -/

/-- What a change does to a sound table if it is not rejected. -/
theorem attempt_eq_ok {t new : Table} {c : Change} (ht : t.Sound) (h : t.attempt c = .ok new) :
    new.Sound ∧ Carries t new c ∧ t.nextId ≤ new.nextId := by
  cases c with
  | insert values =>
    obtain ⟨⟨row, _⟩, hi, rfl⟩ := Except.map_eq_ok_iff.1 h
    obtain ⟨cells, -, -, -, rfl, hn⟩ := insert_eq_ok hi
    exact ⟨insert_sound ht hi, ⟨cells, by rw [hn]⟩, by rw [hn]; exact Nat.le_succ _⟩
  | update condition assignments =>
    obtain ⟨⟨n, _⟩, hu, rfl⟩ := Except.map_eq_ok_iff.1 h
    obtain ⟨-, hn, -, hr⟩ := update_rows ht hu
    exact ⟨update_sound ht hu, hr.imp fun _ _ h => h.2, Nat.le_of_eq hn.symm⟩
  | delete condition =>
    obtain ⟨⟨n, _⟩, hd, rfl⟩ := Except.map_eq_ok_iff.1 h
    obtain ⟨keep, hk, -, hn⟩ := delete_eq_ok hd
    exact ⟨delete_sound ht hd, by rw [hn]; exact hk, by rw [hn]⟩
  | addColumn column =>
    obtain ⟨-, hn⟩ := addColumn_eq_ok h
    exact ⟨addColumn_sound ht h, addColumn_rows ht h, by rw [hn]⟩
  | dropColumn column =>
    obtain ⟨-, i, -, hn⟩ := dropColumn_eq_ok h
    exact ⟨dropColumn_sound ht h, dropColumn_rows ht h, by rw [hn]⟩

theorem after_sound {t : Table} (ht : t.Sound) (c : Change) : (t.after c).Sound := by
  cases h : t.attempt c with
  | ok new => rw [after_of_ok h]; exact (attempt_eq_ok ht h).1
  | error e => simpa [after, h] using ht

theorem nextId_le_after {t : Table} (ht : t.Sound) (c : Change) : t.nextId ≤ (t.after c).nextId := by
  cases h : t.attempt c with
  | ok new => rw [after_of_ok h]; exact (attempt_eq_ok ht h).2.2
  | error e => simp [after, h]

/-! ## Any number of changes -/

theorem afterAll_sound {t : Table} (ht : t.Sound) (cs : List Change) : (t.afterAll cs).Sound := by
  induction cs generalizing t with
  | nil => exact ht
  | cons c cs ih => exact ih (after_sound ht c)

theorem nextId_le_afterAll {t : Table} (ht : t.Sound) (cs : List Change) :
    t.nextId ≤ (t.afterAll cs).nextId := by
  induction cs generalizing t with
  | nil => exact Nat.le_refl _
  | cons c cs ih => exact Nat.le_trans (nextId_le_after ht c) (ih (after_sound ht c))

/-- An id that was ever there is below the next one for good. -/
theorem rowId_lt_nextId_afterAll {t : Table} (ht : t.Sound) {row : Row} (h : row ∈ t.rows)
    (cs : List Change) : rowId row < (t.afterAll cs).nextId :=
  Nat.lt_of_lt_of_le (ht.ids_below row h) (nextId_le_afterAll ht cs)

/-- Whatever changes a table was asked for, it is sound; the next change keeps ids and order, and
never lowers the next id; and a new row gets an id above all that were ever there. -/
theorem representation_invariant {t : Table} (ht : t.Origin) (cs : List Change) :
    (t.afterAll cs).Sound ∧
    (∀ c new, (t.afterAll cs).attempt c = .ok new → Carries (t.afterAll cs) new c) ∧
    (∀ c, (t.afterAll cs).nextId ≤ ((t.afterAll cs).after c).nextId) ∧
    ∀ values row new, (t.afterAll cs).insert values = .ok (row, new) →
      ∀ before, before <+: cs → ∀ old ∈ (t.afterAll before).rows, rowId old < rowId row := by
  have hs := afterAll_sound ht.sound cs
  refine ⟨hs, fun c new h => (attempt_eq_ok hs h).2.1, nextId_le_after hs, ?_⟩
  rintro values row new h before ⟨rest, rfl⟩ old hold
  obtain ⟨cells, -, -, -, rfl, -⟩ := insert_eq_ok h
  have hb := afterAll_sound ht.sound before
  have hlt := rowId_lt_nextId_afterAll hb hold rest
  rw [rowId_cons, Text.toNat_ofNat, afterAll_append]
  exact hlt

theorem representation_invariant_of_new_table :
    (afterAll ⟨['t'], [Name.id, ['a']], [], 1⟩
      [.insert [⟨.string, ['x']⟩], .delete none, .dropColumn ['i', 'D']]).Sound ∧
    ∀ old ∈ (afterAll ⟨['t'], [Name.id, ['a']], [], 1⟩ [.insert [⟨.string, ['x']⟩]]).rows,
      rowId old < 2 := by
  have ho : Origin ⟨['t'], [Name.id, ['a']], [], 1⟩ := .created ['t'] [['a']] rfl
  have h := representation_invariant ho
    [.insert [⟨.string, ['x']⟩], .delete none, .dropColumn ['i', 'D']]
  have hi : (afterAll ⟨['t'], [Name.id, ['a']], [], 1⟩
      [.insert [⟨.string, ['x']⟩], .delete none, .dropColumn ['i', 'D']]).insert
      [⟨.string, ['y']⟩] = .ok ([⟨.number, ['2']⟩, ⟨.string, ['y']⟩],
        ⟨['t'], [Name.id, ['a']], [[⟨.number, ['2']⟩, ⟨.string, ['y']⟩]], 3⟩) := rfl
  refine ⟨h.1, ?_⟩
  intro old hold
  exact h.2.2.2 _ _ _ hi _ (List.prefix_append _ _) old hold

/-- Whatever changes a table was asked for, its text is read as a table with its columns and rows,
whose next id follows the largest one that is left, and which has the same text. -/
theorem file_round_trip {t : Table} (ht : t.Origin) (cs : List Change) (name path : Text) :
    ∃ new, decode name (t.afterAll cs).encode path = .ok new ∧ new.name = name ∧
      new.columns = (t.afterAll cs).columns ∧ new.rows = (t.afterAll cs).rows ∧
      new.nextId = (((t.afterAll cs).rows.map rowId).max?.elim 1 (· + 1)) ∧
      new.nextId ≤ (t.afterAll cs).nextId ∧ new.encode = (t.afterAll cs).encode := by
  have hs := afterAll_sound ht.sound cs
  refine ⟨_, decode_encode hs name path, rfl, rfl, rfl, followingId_eq _, ?_, rfl⟩
  exact followingId_le hs.next_pos hs.ids_below

/-- A table from a text whose id has leading zeros and whose last line is not ended. -/
theorem file_round_trip_of_read_table :
    ∃ new, decode ['u'] (afterAll ⟨['t'], [['I', 'D'], ['a']],
        [[⟨.number, ['7']⟩, ⟨.string, []⟩]], 8⟩
        [.insert [⟨.string, ['1', '.', '0']⟩], .addColumn ['b']]).encode ['p'] = .ok new ∧
      new.name = ['u'] ∧ new.nextId = 9 ∧ new.rows = [[⟨.number, ['7']⟩, ⟨.string, []⟩, Value.null],
        [⟨.number, ['8']⟩, ⟨.number, ['1', '.', '0']⟩, Value.null]] := by
  have ho : Origin ⟨['t'], [['I', 'D'], ['a']], [[⟨.number, ['7']⟩, ⟨.string, []⟩]], 8⟩ :=
    .read ['t'] ['I', 'D', '\t', 'a', '\n', '0', '0', '7', '\t'] [] (by decide) rfl
  obtain ⟨new, hd, hn, -, hr, hi, -, -⟩ := file_round_trip ho
    [.insert [⟨.string, ['1', '.', '0']⟩], .addColumn ['b']] ['u'] ['p']
  exact ⟨new, hd, hn, hi, hr⟩

end Tabular.Table
