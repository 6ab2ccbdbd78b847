import Mathlib.Data.List.Nodup
import Mathlib.Data.List.Perm.Basic
import Tabular.Proofs.Failure.Balks
import Tabular.Proofs.Table.Changes

/-!
# Which rows match

Select, update and delete each go through the rows with the same test, and each in a way of its
own. Where the test fails on a row, all three fail as it does on the first such row. Where it
judges every row, they take the same rows to match: select returns them, delete leaves the others,
and an update changes the assigned cells of each, whatever the order of its assignments.
-/

namespace Except

variable {ε α β : Type} {x : Except ε α}

theorem bind_of_ok {a : α} (h : x = .ok a) (f : α → Except ε β) : x >>= f = f a := by
  rw [h]
  rfl

theorem bind_of_error {e : ε} (h : x = .error e) (f : α → Except ε β) : x >>= f = .error e := by
  rw [h]
  rfl

end Except

namespace Tabular

variable {α β γ : Type}

/-- Going through a list fails as its first member does that fails. -/
theorem error_through {f : α → Except Failure β} (loop : List α → Except Failure γ)
    {g : α → β → γ → γ}
    (hcons : ∀ a as, loop (a :: as) = f a >>= fun b => loop as >>= fun c => pure (g a b c))
    {as : List α} {fault : Failure}
    (h : FirstBad (fun a => ∃ b, f a = .ok b) (fun a => f a = .error fault) as) :
    loop as = .error fault := by
  induction as with
  | nil => exact absurd h not_firstBad_nil
  | cons a as ih =>
    rw [hcons]
    rcases firstBad_cons.1 h with ha | ⟨⟨b, hb⟩, has⟩
    · exact Except.bind_of_error ha _
    · exact (Except.bind_of_ok hb _).trans (Except.bind_of_error (ih has) _)

/-- Every member has a result, or there is a first one that fails. -/
theorem all_ok_or_firstBad (f : α → Except Failure β) (as : List α) :
    (∀ a ∈ as, ∃ b, f a = .ok b) ∨
      ∃ fault, FirstBad (fun a => ∃ b, f a = .ok b) (fun a => f a = .error fault) as := by
  induction as with
  | nil => exact .inl nofun
  | cons a as ih =>
    cases ha : f a with
    | error fault => exact .inr ⟨fault, firstBad_cons.2 (.inl ha)⟩
    | ok b =>
      rcases ih with hall | ⟨fault, hbad⟩
      · exact .inl (List.forall_mem_cons.2 ⟨⟨b, ha⟩, hall⟩)
      · exact .inr ⟨fault, firstBad_cons.2 (.inr ⟨⟨b, ha⟩, hbad⟩)⟩

theorem exists_forall₂ {R : α → β → Prop} {as : List α} (h : ∀ a ∈ as, ∃ b, R a b) :
    ∃ bs, List.Forall₂ R as bs := by
  induction as with
  | nil => exact ⟨[], .nil⟩
  | cons a as ih =>
    obtain ⟨⟨b, hb⟩, has⟩ := List.forall_mem_cons.1 h
    obtain ⟨bs, hbs⟩ := ih has
    exact ⟨b :: bs, .cons hb hbs⟩

namespace Predicate

/-- Does the test accept the row? -/
def holds (p : Predicate) (row : Row) : Bool :=
  match p row with
  | .ok yes => yes
  | .error _ => false

/-- The test judges every one of the rows. -/
def Judges (p : Predicate) (rows : List Row) : Prop := ∀ row ∈ rows, ∃ yes, p row = .ok yes

/-- The first row that the test does not judge, and why not. -/
def FailsWith (p : Predicate) (fault : Failure) (rows : List Row) : Prop :=
  FirstBad (fun row => ∃ yes, p row = .ok yes) (fun row => p row = .error fault) rows

variable {p : Predicate} {row : Row} {rows : List Row} {fault : Failure}

theorem Judges.eq_holds (h : p.Judges rows) (hrow : row ∈ rows) : p row = .ok (p.holds row) := by
  obtain ⟨yes, hyes⟩ := h row hrow
  rw [holds, hyes]

theorem Judges.of_cons (h : p.Judges (row :: rows)) : p.Judges rows := fun r hr =>
  h r (List.mem_cons_of_mem row hr)

/-- The test that says no where this one says yes. -/
def opposite (p : Predicate) (row : Row) : Except Failure Bool := (p row).map (! ·)

theorem Judges.opposite_eq (h : p.Judges rows) (hrow : row ∈ rows) :
    p.opposite row = .ok (!p.holds row) := by
  rw [opposite, h.eq_holds hrow]
  rfl

theorem Judges.opposite (h : p.Judges rows) : Judges p.opposite rows := fun _ hrow =>
  ⟨_, h.opposite_eq hrow⟩

theorem Judges.holds_opposite (h : p.Judges rows) (hrow : row ∈ rows) :
    holds p.opposite row = !p.holds row := by
  rw [holds, h.opposite_eq hrow]

theorem FailsWith.opposite (h : p.FailsWith fault rows) : FailsWith p.opposite fault rows := by
  obtain ⟨front, row, back, hrows, hfront, hrow⟩ := h
  refine ⟨front, row, back, hrows, fun r hr => Judges.opposite hfront r hr, ?_⟩
  show (p row).map (! ·) = .error fault
  rw [hrow]
  rfl

end Predicate

namespace Table

variable {p : Predicate} {rows : List Row} {fault : Failure}

theorem accepted_eq_filter (h : p.Judges rows) : accepted p rows = .ok (rows.filter p.holds) := by
  induction rows with
  | nil => rfl
  | cons row rows ih =>
    rw [accepted, h.eq_holds (by simp), ih h.of_cons, List.filter_cons]
    rfl

theorem verdicts_eq_map (h : p.Judges rows) : verdicts p rows = .ok (rows.map p.holds) := by
  induction rows with
  | nil => rfl
  | cons row rows ih =>
    rw [verdicts, h.eq_holds (by simp), ih h.of_cons]
    rfl

theorem accepted_eq_error (h : p.FailsWith fault rows) : accepted p rows = .error fault :=
  error_through (accepted p) (g := fun row (yes : Bool) rest => if yes then row :: rest else rest)
    (fun _ _ => rfl) h

theorem verdicts_eq_error (h : p.FailsWith fault rows) : verdicts p rows = .error fault :=
  error_through (verdicts p) (fun _ _ => rfl) h

/-! ## Assignments -/

/-- What an assignment makes of a table's columns: the place of its column, which is not the id's,
and the stored form of its value. -/
def Aims (t : Table) (a : Text × Value) (cell : Nat × Value) : Prop :=
  Name.isId a.1 = false ∧ t.index a.1 = .ok cell.1 ∧ stored a.2 = .ok cell.2

/-- Assignments that can be made: none to the id, all to columns that are there, with values that
can be stored, and no two to one column. -/
structure Assignable (t : Table) (assignments : List (Text × Value)) : Prop where
  aims : ∀ a ∈ assignments, ∃ cell, t.Aims a cell
  distinct : assignments.Pairwise fun a b => t.index a.1 ≠ t.index b.1

/-- A row with exactly the assigned cells changed, to the stored form of the values. -/
structure Rewritten (t : Table) (assignments : List (Text × Value)) (row row' : Row) : Prop where
  length_eq : row'.length = row.length
  assigned : ∀ a ∈ assignments, ∃ i v, t.index a.1 = .ok i ∧ stored a.2 = .ok v ∧ row'[i]? = some v
  others : ∀ j, (∀ a ∈ assignments, t.index a.1 ≠ .ok j) → row'[j]? = row[j]?

variable {t : Table} {before cells : List (Nat × Value)} {assignments : List (Text × Value)}

/-- Of assignments the first is aimed at a place that is free, and then the rest. -/
theorem targets_cons_eq_ok_iff {a : Text × Value} {rest : List (Text × Value)} :
    t.targets before (a :: rest) = .ok cells ↔
      ∃ c, t.Aims a c ∧ c.1 ∉ before.map (·.1) ∧ t.targets (before ++ [c]) rest = .ok cells := by
  obtain ⟨column, v⟩ := a
  constructor
  · intro h
    rw [targets] at h
    split at h
    · cases h
    next hid =>
    obtain ⟨i, hi, h⟩ := Except.bind_eq_ok_iff.1 h
    split at h
    · cases h
    next hfree =>
    obtain ⟨w, hw, h⟩ := Except.bind_eq_ok_iff.1 h
    exact ⟨(i, w), ⟨by simpa using hid, hi, hw⟩, by simpa using hfree, h⟩
  · rintro ⟨c, ⟨hid, hi, hw⟩, hfree, h⟩
    rw [targets, if_neg (by simp [hid])]
    refine Except.bind_eq_ok_iff.2 ⟨_, hi, ?_⟩
    rw [if_neg (by simpa using hfree)]
    exact Except.bind_eq_ok_iff.2 ⟨_, hw, h⟩

theorem targets_eq_ok_iff : t.targets before assignments = .ok cells ↔
    ∃ new, cells = before ++ new ∧ List.Forall₂ t.Aims assignments new ∧
      (new.map (·.1)).Nodup ∧ ∀ c ∈ new, c.1 ∉ before.map (·.1) := by
  induction assignments generalizing before with
  | nil => simp [targets, eq_comm]
  | cons a rest ih =>
    -- Free for the first and then for the rest is free for all, with the first not among the rest.
    have hfree (c : Nat × Value) (new : List (Nat × Value)) :
        (c.1 ∉ before.map (·.1) ∧ (new.map (·.1)).Nodup ∧
            ∀ d ∈ new, d.1 ∉ (before ++ [c]).map (·.1)) ↔
          ((c :: new).map (·.1)).Nodup ∧ ∀ d ∈ c :: new, d.1 ∉ before.map (·.1) := by
      rw [List.map_cons, List.nodup_cons, List.forall_mem_cons, List.map_append]
      simp only [List.mem_append, not_or, List.map_singleton, List.mem_singleton, List.mem_map,
        forall_and]
      grind
    rw [targets_cons_eq_ok_iff]
    constructor
    · rintro ⟨c, haim, hc, h⟩
      obtain ⟨new, rfl, haims, hnew, hout⟩ := ih.1 h
      exact ⟨c :: new, by simp, .cons haim haims, (hfree c new).1 ⟨hc, hnew, hout⟩⟩
    · rintro ⟨_, rfl, _ | ⟨haim, haims⟩, hnew⟩
      next c new =>
      obtain ⟨hc, hnew, hout⟩ := (hfree c new).2 hnew
      exact ⟨c, haim, hc, ih.2 ⟨new, by simp, haims, hnew, hout⟩⟩

/-- The cells differ in their places exactly if the assignments differ in their columns. -/
theorem nodup_places_iff {new : List (Nat × Value)} (h : List.Forall₂ t.Aims assignments new) :
    (new.map (·.1)).Nodup ↔ assignments.Pairwise fun a b => t.index a.1 ≠ t.index b.1 := by
  have hmap : assignments.map (fun a => t.index a.1) = new.map fun c => .ok c.1 := by
    induction h with
    | nil => rfl
    | cons haim _ ih => rw [List.map_cons, List.map_cons, haim.2.1, ih]
  calc (new.map (·.1)).Nodup
      ↔ (new.map fun c => (.ok c.1 : Except Failure Nat)).Nodup := by
        simp [List.Nodup, List.pairwise_map]
    _ ↔ (assignments.map fun a => t.index a.1).Nodup := by rw [hmap]
    _ ↔ assignments.Pairwise fun a b => t.index a.1 ≠ t.index b.1 := by
        rw [List.Nodup, List.pairwise_map]

/-- The cells to change are found if and only if the assignments can be made. -/
theorem exists_targets_iff :
    (∃ cells, t.targets [] assignments = .ok cells) ↔ t.Assignable assignments := by
  constructor
  · rintro ⟨cells, hcells⟩
    obtain ⟨new, -, haims, hnew, -⟩ := targets_eq_ok_iff.1 hcells
    refine ⟨fun a ha => ?_, (nodup_places_iff haims).1 hnew⟩
    obtain ⟨c, -, hc⟩ := exists_of_mem_left haims ha
    exact ⟨c, hc⟩
  · rintro ⟨haims, hdistinct⟩
    obtain ⟨cells, hcells⟩ := exists_forall₂ haims
    exact ⟨cells, targets_eq_ok_iff.2 ⟨cells, rfl, hcells, (nodup_places_iff hcells).2 hdistinct,
      fun _ _ => nofun⟩⟩

theorem nodup_targets (h : t.targets [] assignments = .ok cells) : (cells.map (·.1)).Nodup := by
  obtain ⟨new, rfl, -, hnew, -⟩ := targets_eq_ok_iff.1 h
  exact hnew

/-- Assignments in another order find the same cells, in that order. -/
theorem targets_perm {assignments' : List (Text × Value)} (h : t.targets [] assignments = .ok cells)
    (hp : assignments'.Perm assignments) :
    ∃ cells', t.targets [] assignments' = .ok cells' ∧ cells'.Perm cells := by
  obtain ⟨new, rfl, haims, hnew, -⟩ := targets_eq_ok_iff.1 h
  obtain ⟨new', haims', hp'⟩ := List.perm_comp_forall₂ hp haims
  refine ⟨new', targets_eq_ok_iff.2 ⟨new', rfl, haims', ?_, fun _ _ => nofun⟩, hp'⟩
  exact (hp'.map _).nodup_iff.2 hnew

/-! ## Changes of cells -/

@[simp] theorem change_nil (row : Row) : change [] row = row := rfl

@[simp] theorem change_cons (c : Nat × Value) (row : Row) :
    change (c :: cells) row = change cells (row.set c.1 c.2) := rfl

@[simp] theorem length_change (row : Row) : (change cells row).length = row.length := by
  induction cells generalizing row with
  | nil => rfl
  | cons c cells ih => rw [change_cons, ih, List.length_set]

theorem getElem?_change_of_notMem {row : Row} {j : Nat} (h : j ∉ cells.map (·.1)) :
    (change cells row)[j]? = row[j]? := by
  induction cells generalizing row with
  | nil => rfl
  | cons c cells ih =>
    rw [List.map_cons, List.mem_cons, not_or] at h
    rw [change_cons, ih h.2, List.getElem?_set_ne (Ne.symm h.1)]

theorem getElem?_change_of_mem {row : Row} {c : Nat × Value} (hc : c ∈ cells)
    (hd : (cells.map (·.1)).Nodup) (hlt : c.1 < row.length) :
    (change cells row)[c.1]? = some c.2 := by
  induction cells generalizing row with
  | nil => cases hc
  | cons d cells ih =>
    rw [List.map_cons, List.nodup_cons] at hd
    rw [change_cons]
    obtain rfl | hc := List.mem_cons.1 hc
    · rw [getElem?_change_of_notMem hd.1, List.getElem?_set_self hlt]
    · exact ih hc hd.2 (by rwa [List.length_set])

/-- Changes of different cells may come in any order. -/
theorem change_perm {cells' : List (Nat × Value)} (hp : cells'.Perm cells)
    (hd : (cells.map (·.1)).Nodup) (row : Row) : change cells' row = change cells row := by
  refine hp.foldl_eq' (fun c hc d hd' row => ?_) row
  by_cases hcd : c = d
  · rw [hcd]
  · refine List.set_comm _ _ fun h => hcd ?_
    exact List.inj_on_of_nodup_map hd (hp.subset hc) (hp.subset hd') h

/-- The change of a row of the table is what the assignments say. -/
theorem rewritten_change (h : t.targets [] assignments = .ok cells) {row : Row}
    (hrow : row.length = t.columns.length) : t.Rewritten assignments row (change cells row) := by
  obtain ⟨new, rfl, haims, hnew, -⟩ := targets_eq_ok_iff.1 h
  refine ⟨length_change row, fun a ha => ?_, fun j hj => getElem?_change_of_notMem fun hm => ?_⟩
  · obtain ⟨c, hc, -, hi, hv⟩ := exists_of_mem_left haims ha
    refine ⟨c.1, c.2, hi, hv, getElem?_change_of_mem hc hnew ?_⟩
    rw [hrow]
    exact Name.find?_lt (index_eq_ok_iff.1 hi)
  · obtain ⟨c, hc, rfl⟩ := List.mem_map.1 hm
    obtain ⟨a, ha, -, hi, -⟩ := exists_of_mem_right haims hc
    exact hj a ha hi

/-! ## The three ways through the rows -/

/-- The rows that a test accepts. -/
def matching (t : Table) (p : Predicate) : List Row := t.rows.filter p.holds

/-- The table without the rows that a test accepts. -/
def without (t : Table) (p : Predicate) : Table :=
  { t with rows := t.rows.filter fun row => !p.holds row }

variable {condition : Option Condition}

theorem select_eq (hb : Condition.bindOptional t.columns condition = .ok p)
    (h : p.Judges t.rows) : t.select condition = .ok (t.matching p) := by
  rw [select, hb]
  exact accepted_eq_filter h

theorem delete_eq (hb : Condition.bindOptional t.columns condition = .ok p)
    (h : p.Judges t.rows) :
    t.delete condition = .ok ((t.matching p).length, t.without p) := by
  have hkeep : accepted p.opposite t.rows = .ok (t.rows.filter fun row => !p.holds row) := by
    rw [accepted_eq_filter h.opposite, List.filter_congr fun row hrow => h.holds_opposite hrow]
  have hcount : t.rows.length - (t.rows.filter fun row => !p.holds row).length =
      (t.matching p).length := by
    rw [matching, ← List.countP_eq_length_filter, ← List.countP_eq_length_filter,
      List.length_eq_countP_add_countP p.holds]
    simp
  rw [delete, ← hcount]
  exact Except.bind_eq_ok_iff.2 ⟨p, hb, Except.bind_eq_ok_iff.2 ⟨_, hkeep, rfl⟩⟩

theorem update_eq (hc : t.targets [] assignments = .ok cells)
    (hb : Condition.bindOptional t.columns condition = .ok p) (h : p.Judges t.rows) :
    t.update condition assignments = .ok ((t.matching p).length, { t with
      rows := t.rows.map fun row => if p.holds row then change cells row else row }) := by
  have hcount : (t.rows.map p.holds).count true = (t.matching p).length := by
    rw [matching, ← List.countP_eq_length_filter, List.count, List.countP_map]
    simp [Function.comp_def]
  rw [update, ← hcount]
  refine Except.bind_eq_ok_iff.2 ⟨cells, hc, Except.bind_eq_ok_iff.2 ⟨p, hb,
    Except.bind_eq_ok_iff.2 ⟨_, verdicts_eq_map h, ?_⟩⟩⟩
  rw [List.zipWith_map_right, List.zipWith_self]
  rfl

/-- After the rows that match are deleted, none does. -/
theorem select_without (hb : Condition.bindOptional t.columns condition = .ok p)
    (h : p.Judges t.rows) : (t.without p).select condition = .ok [] := by
  have hrest : p.Judges (t.without p).rows := fun row hrow => h row (List.mem_of_mem_filter hrow)
  rw [select_eq (t := t.without p) hb hrest, matching, without, List.filter_filter]
  simp

/-- Select, delete and an update that can be made all fail alike. -/
def AllFail (t : Table) (condition : Option Condition) (assignments : List (Text × Value))
    (fault : Failure) : Prop :=
  t.select condition = .error fault ∧ t.delete condition = .error fault ∧
    (t.Assignable assignments → t.update condition assignments = .error fault)

theorem allFail_of_bindOptional
    (hb : Condition.bindOptional t.columns condition = .error fault) :
    t.AllFail condition assignments fault := by
  refine ⟨Except.bind_of_error hb _, Except.bind_of_error hb _, fun ha => ?_⟩
  obtain ⟨cells, hc⟩ := exists_targets_iff.2 ha
  exact (Except.bind_of_ok hc _).trans (Except.bind_of_error hb _)

theorem allFail_of_failsWith (hb : Condition.bindOptional t.columns condition = .ok p)
    (h : p.FailsWith fault t.rows) : t.AllFail condition assignments fault := by
  refine ⟨?_, ?_, fun ha => ?_⟩
  · exact (Except.bind_of_ok hb _).trans (accepted_eq_error h)
  · exact (Except.bind_of_ok hb _).trans (Except.bind_of_error (accepted_eq_error h.opposite) _)
  · obtain ⟨cells, hc⟩ := exists_targets_iff.2 ha
    exact (Except.bind_of_ok hc _).trans
      ((Except.bind_of_ok hb _).trans (Except.bind_of_error (verdicts_eq_error h) _))

theorem update_eq_error (h : ¬ t.Assignable assignments) :
    ∃ fault, t.update condition assignments = .error fault := by
  cases hc : t.targets [] assignments with
  | ok cells => exact absurd (exists_targets_iff.1 ⟨cells, hc⟩) h
  | error fault => exact ⟨fault, Except.bind_of_error hc _⟩

/-- An update changes exactly the rows that match, in exactly the assigned columns, whatever the
order of the assignments. -/
theorem update_of_judges (ht : t.Sound) (ha : t.Assignable assignments)
    (hb : Condition.bindOptional t.columns condition = .ok p) (h : p.Judges t.rows) :
    ∃ new, t.update condition assignments = .ok ((t.matching p).length, new) ∧
      new.name = t.name ∧ new.columns = t.columns ∧ new.nextId = t.nextId ∧
      List.Forall₂ (fun row row' => if p.holds row then t.Rewritten assignments row row'
        else row' = row) t.rows new.rows ∧
      ∀ assignments', assignments'.Perm assignments →
        t.update condition assignments' = .ok ((t.matching p).length, new) := by
  obtain ⟨cells, hc⟩ := exists_targets_iff.2 ha
  refine ⟨_, update_eq hc hb h, rfl, rfl, rfl, ?_, fun assignments' hp => ?_⟩
  · refine List.forall₂_map_right_iff.2 (List.forall₂_same.2 fun row hrow => ?_)
    split
    · exact rewritten_change hc (ht.rows row hrow).width_eq
    · rfl
  · obtain ⟨cells', hc', hp'⟩ := targets_perm hc hp
    have hchange : change cells' = change cells := funext (change_perm hp' (nodup_targets hc))
    rw [update_eq hc' hb h, hchange]

/-- A change that fails leaves the table as it is. -/
theorem after_of_error {c : Change} (h : t.attempt c = .error fault) : t.after c = t := by
  rw [after, h]

/-- In every table, select, update and delete take the same rows to match, or all fail as the test
does on the first row that it fails on; and a change that fails leaves the table as it is. -/
theorem matching_agrees {t₀ t : Table} (ht : t₀.Origin) (cs : List Change)
    (hlife : t₀.afterAll cs = t) (condition : Option Condition)
    (assignments : List (Text × Value)) :
    (∀ c fault, t.attempt c = .error fault → t.after c = t) ∧
    (¬ t.Assignable assignments → ∃ fault, t.update condition assignments = .error fault) ∧
    ((∃ fault, Condition.bindOptional t.columns condition = .error fault ∧
        t.AllFail condition assignments fault) ∨
      ∃ p, Condition.bindOptional t.columns condition = .ok p ∧
        ((∃ fault, p.FailsWith fault t.rows ∧ t.AllFail condition assignments fault) ∨
          p.Judges t.rows ∧ t.select condition = .ok (t.matching p) ∧
            t.delete condition = .ok ((t.matching p).length, t.without p) ∧
            (t.without p).select condition = .ok [] ∧
            (t.Assignable assignments →
              ∃ new, t.update condition assignments = .ok ((t.matching p).length, new) ∧
                new.name = t.name ∧ new.columns = t.columns ∧ new.nextId = t.nextId ∧
                List.Forall₂ (fun row row' => if p.holds row then t.Rewritten assignments row row'
                  else row' = row) t.rows new.rows ∧
                ∀ assignments', assignments'.Perm assignments →
                  t.update condition assignments' = .ok ((t.matching p).length, new)))) := by
  have hs : t.Sound := hlife ▸ afterAll_sound ht.sound cs
  refine ⟨fun c fault => after_of_error, update_eq_error, ?_⟩
  cases hb : Condition.bindOptional t.columns condition with
  | error fault => exact .inl ⟨fault, rfl, allFail_of_bindOptional hb⟩
  | ok p =>
    refine .inr ⟨p, rfl, ?_⟩
    rcases all_ok_or_firstBad p t.rows with hj | ⟨fault, hbad⟩
    · exact .inr ⟨hj, select_eq hb hj, delete_eq hb hj, select_without hb hj,
        fun ha => update_of_judges hs ha hb hj⟩
    · exact .inl ⟨fault, hbad, allFail_of_failsWith hb hbad⟩

/-- Of a table of two rows one matches, and two of its cells change in either order. -/
theorem matching_agrees_of_two_rows : ∃ new : Table,
    update ⟨['t'], [Name.id, ['a'], ['b']], [[⟨.number, ['1']⟩, .string ['x'], .null],
      [⟨.number, ['2']⟩, .string ['y'], .null]], 3⟩ (some (.compare ['A'] .eq (.string ['x'])))
      [(['b'], .string ['5']), (['a'], .null)] = .ok (1, new) ∧
    update ⟨['t'], [Name.id, ['a'], ['b']], [[⟨.number, ['1']⟩, .string ['x'], .null],
      [⟨.number, ['2']⟩, .string ['y'], .null]], 3⟩ (some (.compare ['A'] .eq (.string ['x'])))
      [(['a'], .null), (['b'], .string ['5'])] = .ok (1, new) := by
  have ho : Origin ⟨['t'], [Name.id, ['a'], ['b']], [], 1⟩ := .created ['t'] [['a'], ['b']] rfl
  have hs : select ⟨['t'], [Name.id, ['a'], ['b']], [[⟨.number, ['1']⟩, .string ['x'], .null],
      [⟨.number, ['2']⟩, .string ['y'], .null]], 3⟩ (some (.compare ['A'] .eq (.string ['x']))) =
      .ok [[⟨.number, ['1']⟩, .string ['x'], .null]] := rfl
  obtain ⟨-, -, ⟨fault, hb, -⟩ | ⟨p, hb, ⟨fault, -, hfail, -⟩ | ⟨-, hm, -, -, hu⟩⟩⟩ :=
    matching_agrees ho [.insert [.string ['x'], .null], .insert [.string ['y'], .null]] rfl
      (some (.compare ['A'] .eq (.string ['x']))) [(['b'], .string ['5']), (['a'], .null)]
  · cases hb
  · cases hs.symm.trans hfail
  · obtain ⟨new, hnew, -, -, -, -, hperm⟩ := hu (exists_targets_iff.1 ⟨_, rfl⟩)
    rw [← Except.ok.inj (hs.symm.trans hm)] at hnew hperm
    exact ⟨new, hnew, hperm _ (.swap _ _ _)⟩

end Table

end Tabular
