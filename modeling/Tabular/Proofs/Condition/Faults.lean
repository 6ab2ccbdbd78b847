import Tabular.Proofs.Condition.Stumbling
import Tabular.Proofs.Table.Matching
import Tabular.Proofs.Value.Order

/-!
# What is wrong with a condition

A condition is looked over in two ways. Binding goes through all its comparisons, whatever the rows
are, and stops at the first that no row could make sense of. Judging a row goes from left to right
no further than needed, and stops at the first comparison it comes to that would order a cell that
has no order. So what binding has passed never fails for its columns or its literals.
-/

theorem Except.bind_pure_eq_error_iff {ε α β : Type} {x : Except ε α} {f : α → β} {e : ε} :
    (x >>= fun a => pure (f a)) = .error e ↔ x = .error e := by
  cases x <;> simp [bind, Except.bind, pure, Except.pure]

namespace Tabular

section FirstBad

variable {α β : Type} {good : α → Prop}

theorem firstBad_singleton {bad : α → Prop} {a : α} : FirstBad good bad [a] ↔ bad a := by
  simp [firstBad_cons]

theorem firstBad_append {bad : α → Prop} {as bs : List α} : FirstBad good bad (as ++ bs) ↔
    FirstBad good bad as ∨ (∀ a ∈ as, good a) ∧ FirstBad good bad bs := by
  induction as with
  | nil => simp
  | cons a as ih =>
    rw [List.cons_append, firstBad_cons, firstBad_cons, ih, List.forall_mem_cons]
    tauto

/-- The first bad one of several lists together is in the first list with a bad one. -/
theorem firstBad_flatMap {bad : α → Prop} {f : β → List α} {bs : List β} :
    FirstBad good bad (bs.flatMap f) ↔
      FirstBad (fun b => ∀ a ∈ f b, good a) (fun b => FirstBad good bad (f b)) bs := by
  induction bs with
  | nil => simp
  | cons b bs ih => rw [List.flatMap_cons, firstBad_append, firstBad_cons, ih]

theorem firstBad_exists {bad : β → α → Prop} {as : List α} :
    FirstBad good (fun a => ∃ b, bad b a) as ↔ ∃ b, FirstBad good (bad b) as := by
  constructor
  · rintro ⟨front, a, back, has, hfront, b, hb⟩
    exact ⟨b, front, a, back, has, hfront, hb⟩
  · rintro ⟨b, front, a, back, has, hfront, hb⟩
    exact ⟨front, a, back, has, hfront, b, hb⟩

theorem firstBad_and {bad : α → Prop} {as : List α} {p : Prop} :
    FirstBad good (fun a => bad a ∧ p) as ↔ FirstBad good bad as ∧ p := by
  constructor
  · rintro ⟨front, a, back, has, hfront, ha, hp⟩
    exact ⟨⟨front, a, back, has, hfront, ha⟩, hp⟩
  · rintro ⟨⟨front, a, back, has, hfront, ha⟩, hp⟩
    exact ⟨front, a, back, has, hfront, ha, hp⟩

end FirstBad

theorem Name.find?_eq_none_iff {columns : List Text} {name : Text} : find? columns name = none ↔
    ∀ c ∈ columns, Text.lower c ≠ Text.lower name := by
  simp [find?]

namespace Value

/-- A value that can be looked at as a number: it is spelled as one if it is one, and is no integer
of too many digits. -/
structure Countable (v : Value) : Prop where
  spelled : v.IsSpelled
  short : ¬ v.Overlong

variable {v : Value}

theorem Countable.exists_number? (h : v.Countable) : ∃ n, v.number? = .ok n := by
  cases hn : v.number? with
  | error fault => exact absurd ((exists_number?_error_iff h.spelled).1 ⟨fault, hn⟩) h.short
  | ok n => exact ⟨n, rfl⟩

theorem number?_eq_ok_none_iff (h : v.Countable) : v.number? = .ok none ↔ ¬ v.IsNumeric := by
  cases hk : v.kind with
  | number =>
    have hread : (Numeral.read v.text).map some ≠ .ok none := by
      cases Numeral.read v.text <;> simp [Except.map]
    simp [number?, IsNumeric, hk, hread, h.spelled hk]
  | string =>
    cases hn : Numeral.ofText? v.text with
    | none => simp [number?, IsNumeric, Numeral.isNumeral, hk, hn]
    | some n =>
      have hread : n.number.map some ≠ .ok none := by cases n.number <;> simp [Except.map]
      simp [number?, IsNumeric, Numeral.isNumeral, hk, hn, hread]
  | boolean => simp [number?, IsNumeric, hk]
  | null => simp [number?, IsNumeric, hk]

theorem Countable.reading (h : v.Countable) : v.Reading := by
  obtain ⟨n, hn⟩ := h.exists_number?
  cases hv : v.isNull with
  | true => exact .null hv (by simp [sense, hv])
  | false =>
    cases n with
    | none => exact .text hv ((number?_eq_ok_none_iff h).1 hn) hn (by simp [sense, hv, hn])
    | some x =>
      have hnum : v.IsNumeric := by
        by_contra hnum
        cases hn.symm.trans ((number?_eq_ok_none_iff h).2 hnum)
      exact .number x hnum hn (by simp [sense, hv, hn])

theorem exists_equals {a b : Value} (ha : a.Countable) (hb : b.Countable) :
    ∃ yes, a.equals b = .ok yes := by
  cases hna : a.isNull with
  | true => exact ⟨b.isNull, by simp [equals, hna]⟩
  | false =>
    cases hnb : b.isNull with
    | true => exact ⟨false, by simp [equals, hna, hnb]⟩
    | false =>
      obtain ⟨m, hm⟩ := ha.exists_number?
      obtain ⟨n, hn⟩ := hb.exists_number?
      exact ⟨_, equals_of_numbers hna hnb hm hn⟩

theorem Legible.countable (h : v.Legible) : v.Countable :=
  ⟨h.isRead.isSpelled, fun hlong => h.short hlong.2⟩

end Value

namespace Condition

/-! ## The comparisons of a condition -/

/-- One comparison of a condition. -/
structure Leaf where
  column : Text
  op : Comparator
  literal : Value

mutual

/-- The comparisons of a condition, from left to right. -/
def leaves : Condition → List Leaf
  | compare column op literal => [⟨column, op, literal⟩]
  | group _ operands => leavesAll operands

def leavesAll : List Condition → List Leaf
  | [] => []
  | c :: cs => leaves c ++ leavesAll cs

end

theorem leavesAll_eq (cs : List Condition) : leavesAll cs = cs.flatMap leaves := by
  induction cs with
  | nil => rfl
  | cons c cs ih => rw [leavesAll, ih, List.flatMap_cons]

/-- What holds of a comparison, and of a group if it holds of the operands, holds of every
condition. -/
theorem induction_on {motive : Condition → Prop}
    (compare : ∀ column op literal, motive (.compare column op literal))
    (group : ∀ op operands, (∀ c ∈ operands, motive c) → motive (.group op operands))
    (c : Condition) : motive c := by
  cases c with
  | compare column op literal => exact compare column op literal
  | group op operands => exact group op operands fun c _ => induction_on compare group c

namespace Leaf

/-- The comparison on its own. -/
def condition (l : Leaf) : Condition := .compare l.column l.op l.literal

theorem condition_injective : Function.Injective condition := by
  rintro ⟨⟩ ⟨⟩ h
  cases h
  rfl

/-- What no row could make sense of: a column that is not there, or else an order by something
other than a number. -/
inductive Unfit (columns : List Text) (l : Leaf) : Failure → Prop
  | column (missing : ∀ c ∈ columns, Text.lower c ≠ Text.lower l.column) :
    Unfit columns l (Rejection.unknownColumn l.column [])
  | literal (found : ∃ c ∈ columns, Text.lower c = Text.lower l.column) (orders : l.op.isOrdering)
    (isNull : l.literal.isNull = false) (isText : ¬ l.literal.IsNumeric) :
    Unfit columns l (ConditionFault.nonNumericOperand l.op l.literal.text)

/-- Nothing is wrong with the comparison, whatever the rows are. -/
def Fit (columns : List Text) (l : Leaf) : Prop := ∀ fault, ¬ l.Unfit columns fault

/-- The cell that the comparison looks at. -/
def At (columns : List Text) (row : Row) (l : Leaf) (cell : Value) : Prop :=
  ∃ i, Name.find? columns l.column = some i ∧ row[i]? = some cell

/-- The comparison would order a cell that has no order. -/
structure Unordered (columns : List Text) (row : Row) (l : Leaf) (cell : Value) : Prop where
  looks : l.At columns row cell
  orders : l.op.isOrdering
  literal : l.literal.isNull = false
  isNull : cell.isNull = false
  isText : ¬ cell.IsNumeric

end Leaf

/-- What a condition comes to, if its comparisons come to what the judge says: a group is settled by
the first operand that settles it, a false one under AND and a true one under OR. -/
inductive Yields (judge : Leaf → Bool → Prop) : Condition → Bool → Prop
  | compare {l : Leaf} {yes : Bool} (judged : judge l yes) : Yields judge l.condition yes
  | settled {op : Connective} {front back : List Condition} {c : Condition}
    (before : ∀ d ∈ front, Yields judge d (op = .and)) (settles : Yields judge c (op ≠ .and)) :
    Yields judge (.group op (front ++ c :: back)) (op ≠ .and)
  | through {op : Connective} {operands : List Condition}
    (all : ∀ d ∈ operands, Yields judge d (op = .and)) :
    Yields judge (.group op operands) (op = .and)

/-- Going from left to right and no further than needed, one comes to the comparison. -/
inductive Reaches (judge : Leaf → Bool → Prop) (l : Leaf) : Condition → Prop
  | compare : Reaches judge l l.condition
  | group {op : Connective} {front back : List Condition} {c : Condition}
    (before : ∀ d ∈ front, Yields judge d (op = .and)) (reaches : Reaches judge l c) :
    Reaches judge l (.group op (front ++ c :: back))

/-- What a comparison says of a row, on its own. -/
def Judged (columns : List Text) (row : Row) (l : Leaf) (yes : Bool) : Prop :=
  ∃ cell, l.At columns row cell ∧ test l.op cell l.literal = .ok yes

variable {columns : List Text} {row : Row} {l : Leaf} {c : Condition} {cs : List Condition}
  {op : Connective} {p : Predicate} {ps : List Predicate} {fault : Failure} {yes : Bool}
  {judge : Leaf → Bool → Prop}

theorem yields_condition_iff : Yields judge l.condition yes ↔ judge l yes := by
  constructor
  · generalize hc : l.condition = c
    rintro (h | _ | _)
    · exact Leaf.condition_injective hc ▸ h
    · cases hc
    · cases hc
  · exact .compare

theorem yields_group_iff : Yields judge (.group op cs) yes ↔
    FirstBad (Yields judge · (op = .and)) (fun c => Yields judge c yes ∧ yes ≠ (op = .and : Bool))
      cs ∨ yes = (op = .and : Bool) ∧ ∀ c ∈ cs, Yields judge c (op = .and) := by
  constructor
  · generalize hg : group op cs = g
    rintro (_ | ⟨hb, hs⟩ | hall) <;> cases hg
    · exact .inl ⟨_, _, _, rfl, hb, hs, by simp⟩
    · exact .inr ⟨rfl, hall⟩
  · rintro (⟨front, c, back, rfl, hb, hs, hyes⟩ | ⟨rfl, hall⟩)
    · obtain rfl : yes = decide (op ≠ .and) := by cases yes <;> cases op <;> simp_all
      exact .settled hb hs
    · exact .through hall

theorem reaches_condition_iff {k : Leaf} : Reaches judge k l.condition ↔ k = l := by
  constructor
  · generalize hc : l.condition = c
    rintro (_ | _)
    · exact (Leaf.condition_injective hc).symm
    · cases hc
  · rintro rfl
    exact .compare

theorem reaches_group_iff : Reaches judge l (.group op cs) ↔
    FirstBad (Yields judge · (op = .and)) (Reaches judge l) cs := by
  constructor
  · generalize hg : group op cs = g
    rintro (_ | ⟨hb, hr⟩) <;> cases hg
    exact ⟨_, _, _, rfl, hb, hr⟩
  · rintro ⟨front, c, back, rfl, hb, hr⟩
    exact .group hb hr

/-! ## Binding -/

theorem checkLiteral_eq_error_iff (h : l.literal.Countable) :
    checkLiteral l.op l.literal = .error fault ↔ l.op.isOrdering ∧ l.literal.isNull = false ∧
      ¬ l.literal.IsNumeric ∧ fault = ConditionFault.nonNumericOperand l.op l.literal.text := by
  unfold checkLiteral
  cases h.reading with
  | null hv => simp [hv]
  | number n hv hn =>
    have hread := Except.mapError_eq_ok_iff (f := Failure.number).2 hn
    simp only [Except.bind_of_ok hread]
    split <;> simp [hv, pure, Except.pure]
  | text hv hnv hn =>
    have hread := Except.mapError_eq_ok_iff (f := Failure.number).2 hn
    simp only [Except.bind_of_ok hread]
    cases l.op.isOrdering <;> simp [hv, hnv, eq_comm]

/-- Binding a comparison fails for what is wrong with it and for nothing else. -/
theorem bind_condition_eq_error_iff (h : l.literal.Countable) :
    l.condition.bind columns = .error fault ↔ l.Unfit columns fault := by
  rw [Leaf.condition, bind, bindCompare, Name.resolve]
  cases hfind : Name.find? columns l.column with
  | none =>
    have hmissing := Name.find?_eq_none_iff.1 hfind
    constructor
    · intro he
      cases he
      exact .column hmissing
    · rintro (_ | ⟨⟨c, hc, he⟩⟩)
      · rfl
      · exact absurd he (hmissing c hc)
  | some i =>
    have hfound : ∃ c ∈ columns, Text.lower c = Text.lower l.column := by
      by_contra hnone
      push Not at hnone
      cases hfind.symm.trans (Name.find?_eq_none_iff.2 hnone)
    have hrest := Except.bind_pure_eq_error_iff (x := checkLiteral l.op l.literal) (e := fault)
      (f := fun _ (row : Row) => test l.op (row.getD i Value.null) l.literal)
    refine hrest.trans ((checkLiteral_eq_error_iff h).trans ⟨?_, ?_⟩)
    · rintro ⟨ho, hn, ht, rfl⟩
      exact .literal hfound ho hn ht
    · rintro (⟨hmissing⟩ | ⟨-, ho, hn, ht⟩)
      · obtain ⟨c, hc, he⟩ := hfound
        exact absurd he (hmissing c hc)
      · exact ⟨ho, hn, ht, rfl⟩

theorem bindAll_eq_error_iff : bindAll columns cs = .error fault ↔
    FirstBad (fun c => ∃ p, c.bind columns = .ok p) (fun c => c.bind columns = .error fault)
      cs := by
  constructor
  · intro h
    rcases all_ok_or_firstBad (bind columns) cs with hall | ⟨fault', hbad⟩
    · obtain ⟨ps, hps⟩ := exists_forall₂ hall
      cases h.symm.trans (bindAll_eq_ok_iff.2 hps)
    · cases h.symm.trans (error_through (bindAll columns) (fun _ _ => rfl) hbad)
      exact hbad
  · exact error_through (bindAll columns) fun _ _ => rfl

theorem exists_bind_group_iff :
    (∃ p, (group op cs).bind columns = .ok p) ↔ ∀ c ∈ cs, ∃ p, c.bind columns = .ok p := by
  constructor
  · rintro ⟨p, hp⟩ c hc
    obtain ⟨ps, hps, -⟩ := Except.bind_eq_ok_iff.1 hp
    obtain ⟨p, -, hp⟩ := exists_of_mem_left (bindAll_eq_ok_iff.1 hps) hc
    exact ⟨p, hp⟩
  · intro h
    obtain ⟨ps, hps⟩ := exists_forall₂ h
    exact ⟨_, Except.bind_of_ok (bindAll_eq_ok_iff.2 hps) _⟩

theorem leaves_group : (group op cs).leaves = cs.flatMap leaves := leavesAll_eq cs

theorem exists_bind_iff (h : ∀ l ∈ c.leaves, l.literal.Countable) :
    (∃ p, c.bind columns = .ok p) ↔ ∀ l ∈ c.leaves, l.Fit columns := by
  induction c using induction_on with
  | compare column op literal =>
    let l : Leaf := ⟨column, op, literal⟩
    have herror {fault : Failure} :
        (compare column op literal).bind columns = .error fault ↔ l.Unfit columns fault :=
      bind_condition_eq_error_iff (h l (by simp [l, leaves]))
    simp only [leaves, List.forall_mem_singleton, Leaf.Fit, ← herror, l]
    cases (compare column op literal).bind columns <;> simp
  | group op cs ih =>
    rw [leaves_group] at h ⊢
    rw [exists_bind_group_iff, List.forall_mem_flatMap]
    exact forall₂_congr fun c hc => ih c hc fun l hl => h l (List.mem_flatMap.2 ⟨c, hc, hl⟩)

/-- Binding fails at the first comparison of all that something is wrong with. -/
theorem bind_eq_error_iff (h : ∀ l ∈ c.leaves, l.literal.Countable) :
    c.bind columns = .error fault ↔
      FirstBad (Leaf.Fit columns) (Leaf.Unfit columns · fault) c.leaves := by
  induction c using induction_on with
  | compare column op literal =>
    rw [leaves, firstBad_singleton]
    exact bind_condition_eq_error_iff (h ⟨column, op, literal⟩ (by simp [leaves]))
  | group op cs ih =>
    rw [leaves_group] at h ⊢
    have hleaves {c} (hc : c ∈ cs) {l} (hl : l ∈ c.leaves) :=
      h l (List.mem_flatMap.2 ⟨c, hc, hl⟩)
    rw [bind, Except.bind_pure_eq_error_iff, bindAll_eq_error_iff, firstBad_flatMap]
    exact firstBad_congr (fun c hc => exists_bind_iff fun l => hleaves hc)
      fun c hc => ih c hc fun l => hleaves hc

/-! ## Judging a row -/

theorem combine_cons_of_open (h : p row = .ok (op = .and)) :
    combine op (p :: ps) row = combine op ps row := by
  cases op <;> exact (Except.bind_of_ok h _).trans rfl

theorem combine_cons_of_settled (h : p row ≠ .ok (op = .and)) :
    combine op (p :: ps) row = p row := by
  cases hp : p row with
  | error fault => cases op <;> exact Except.bind_of_error hp _
  | ok yes =>
    have hyes : yes = decide (op ≠ .and) := by
      rw [hp] at h
      cases yes <;> cases op <;> simp_all
    subst hyes
    cases op <;> exact Except.bind_of_ok hp _

/-- Tests in order come to what the first of them comes to that does not leave the matter open. -/
theorem combine_eq_iff {result : Except Failure Bool} : combine op ps row = result ↔
    FirstBad (fun p => p row = .ok (op = .and)) (fun p => p row = result ∧ result ≠ .ok (op = .and))
      ps ∨ result = .ok (op = .and : Bool) ∧ ∀ p ∈ ps, p row = .ok (op = .and) := by
  induction ps with
  | nil => cases op <;> simp [combine, eq_comm]
  | cons p ps ih =>
    rw [firstBad_cons, List.forall_mem_cons]
    by_cases hp : p row = .ok (op = .and)
    · rw [combine_cons_of_open hp, ih, hp]
      tauto
    · rw [combine_cons_of_settled hp]
      by_cases hr : p row = result
      · simp [hr, hr ▸ hp]
      · simp [hr, hp]

/-- A comparison that nothing is wrong with fails only over a cell that has no order. -/
theorem test_eq_error_iff {cell : Value} (hcell : cell.Countable) (hl : l.literal.Countable)
    (hfit : l.op.isOrdering → l.literal.isNull = false → l.literal.IsNumeric) :
    test l.op cell l.literal = .error fault ↔ l.op.isOrdering ∧ l.literal.isNull = false ∧
      cell.isNull = false ∧ ¬ cell.IsNumeric ∧ fault = ConditionFault.unordered cell.text := by
  obtain ⟨yes, hyes⟩ := Value.exists_equals hcell hl
  cases hop : l.op with
  | eq | ne => simp [test, hyes, Comparator.isOrdering, Except.mapError, Except.map]
  | like => simp [test, Comparator.isOrdering]
  | gt | lt | ge | le =>
    have ho : l.op.isOrdering := by rw [hop]; rfl
    have hcompare : test l.op cell l.literal = .error fault ↔
        cell.compare? l.literal = .error fault := by
      rw [hop]
      cases hc : cell.compare? l.literal with
      | error e => simp [test, hc, Bind.bind, Except.bind]
      | ok o => cases o <;> simp [test, hc, Bind.bind, Except.bind, pure, Except.pure]
    rw [← hop, hcompare]
    simp only [ho, true_and]
    cases hln : l.literal.isNull with
    | true => simp [Value.compare?, hln]
    | false =>
      cases hl.reading with
      | null hv => cases hln.symm.trans hv
      | text _ hv => exact absurd (hfit ho hln) hv
      | number n hv hn =>
        cases hcell.reading with
        | null hcv => simp [Value.compare?, hcv]
        | number m hcv hm =>
          simp [Value.compare?_of_numbers hcv.isNull hv.isNull hm hn, hcv]
        | text hcv hct hm =>
          simp [Value.compare?_of_numbers hcv hv.isNull hm hn, hcv, hct, eq_comm]

theorem forall_bound {good : Predicate → Prop}
    (h : List.Forall₂ (fun c p => c.bind columns = .ok p) cs ps) :
    (∀ p ∈ ps, good p) ↔ ∀ c ∈ cs, ∃ p, c.bind columns = .ok p ∧ good p := by
  induction h with
  | nil => simp
  | @cons c p cs ps hp _ ih => simp [ih, hp]

/-- A comparison that is bound has its literal checked, and tests the cell of its column. -/
theorem exists_at_of_bind (hlength : row.length = columns.length)
    (hp : l.condition.bind columns = .ok p) : checkLiteral l.op l.literal = .ok () ∧
      ∃ cell ∈ row, l.At columns row cell ∧ p row = test l.op cell l.literal := by
  obtain ⟨i, hi, hp⟩ := Except.bind_eq_ok_iff.1 hp
  obtain ⟨_, hchecked, hp⟩ := Except.bind_eq_ok_iff.1 hp
  cases hp
  have hi := Name.resolve_eq_ok_iff.1 (Except.mapError_eq_ok_iff.1 hi)
  have hlt : i < row.length := hlength ▸ Name.find?_lt hi
  exact ⟨hchecked, row[i], List.getElem_mem hlt, ⟨i, hi, List.getElem?_eq_getElem hlt⟩,
    by simp [List.getD_eq_getElem?_getD, hlt]⟩

theorem isNumeric_of_checkLiteral (h : l.literal.Countable)
    (hchecked : checkLiteral l.op l.literal = .ok ()) (ho : l.op.isOrdering)
    (hn : l.literal.isNull = false) : l.literal.IsNumeric := by
  by_contra ht
  cases hchecked.symm.trans ((checkLiteral_eq_error_iff h).2 ⟨ho, hn, ht, rfl⟩)

theorem Leaf.At.inj {v w : Value} (hv : l.At columns row v) (hw : l.At columns row w) : v = w := by
  obtain ⟨i, hi, hv⟩ := hv
  obtain ⟨j, hj, hw⟩ := hw
  cases hi.symm.trans hj
  exact Option.some.inj (hv.symm.trans hw)

/-- A condition that is bound says of a row what it comes to, comparison by comparison. -/
theorem row_eq_ok_iff (hlength : row.length = columns.length) (hp : c.bind columns = .ok p) :
    p row = .ok yes ↔ c.Yields (Judged columns row) yes := by
  induction c using induction_on generalizing p yes with
  | compare column op literal =>
    let l : Leaf := ⟨column, op, literal⟩
    have hyields : Yields (Judged columns row) l.condition yes ↔ Judged columns row l yes :=
      yields_condition_iff
    obtain ⟨-, cell, -, hat, htest⟩ := exists_at_of_bind (l := l) hlength hp
    rw [htest]
    refine Iff.trans ⟨fun h => ⟨cell, hat, h⟩, ?_⟩ hyields.symm
    rintro ⟨cell', hat', h⟩
    exact hat.inj hat' ▸ h
  | group op cs ih =>
    obtain ⟨ps, hps, hp⟩ := Except.bind_eq_ok_iff.1 hp
    cases hp
    have hps := bindAll_eq_ok_iff.1 hps
    have hyes (yes : Bool) : ∀ c ∈ cs, (∃ p, c.bind columns = .ok p ∧ p row = .ok yes) ↔
        c.Yields (Judged columns row) yes := fun c hc => by
      obtain ⟨p, -, hp⟩ := exists_of_mem_left hps hc
      simp [hp, ih c hc hp]
    rw [combine_eq_iff, firstBad_bound hps, forall_bound hps, yields_group_iff]
    refine or_congr (firstBad_congr (hyes _) fun c hc => ?_) (and_congr (by simp) ?_)
    · simp only [← hyes yes c hc, ← and_assoc, ne_eq, Except.ok.injEq, exists_and_right]
    · exact forall₂_congr (hyes _)

/-- A condition that is bound fails on a row over the cell of a comparison that is come to. -/
theorem row_eq_error_iff (hleaves : ∀ l ∈ c.leaves, l.literal.Countable)
    (hrow : ∀ v ∈ row, v.Countable) (hlength : row.length = columns.length)
    (hp : c.bind columns = .ok p) : p row = .error fault ↔ ∃ l cell,
      c.Reaches (Judged columns row) l ∧ l.Unordered columns row cell ∧
        fault = ConditionFault.unordered cell.text := by
  induction c using induction_on generalizing p with
  | compare column op literal =>
    let l : Leaf := ⟨column, op, literal⟩
    have hl := hleaves l (by simp [l, leaves])
    have hreaches (k : Leaf) : Reaches (Judged columns row) k l.condition ↔ k = l :=
      reaches_condition_iff
    obtain ⟨hchecked, cell, hcell, hat, htest⟩ := exists_at_of_bind (l := l) hlength hp
    rw [htest, test_eq_error_iff (hrow cell hcell) hl (isNumeric_of_checkLiteral hl hchecked)]
    constructor
    · rintro ⟨ho, hln, hcn, ht, hf⟩
      exact ⟨_, cell, (hreaches _).2 rfl, ⟨hat, ho, hln, hcn, ht⟩, hf⟩
    · rintro ⟨l, cell', hr, hu, hf⟩
      cases (hreaches l).1 hr
      cases hat.inj hu.looks
      exact ⟨hu.orders, hu.literal, hu.isNull, hu.isText, hf⟩
  | group op cs ih =>
    rw [leaves_group] at hleaves
    obtain ⟨ps, hps, hp⟩ := Except.bind_eq_ok_iff.1 hp
    cases hp
    have hps := bindAll_eq_ok_iff.1 hps
    have hyes : ∀ c ∈ cs, (∃ p, c.bind columns = .ok p ∧ p row = .ok (op = .and)) ↔
        c.Yields (Judged columns row) (op = .and) := fun c hc => by
      obtain ⟨p, -, hp⟩ := exists_of_mem_left hps hc
      simp [hp, row_eq_ok_iff hlength hp]
    have hfails : ∀ c ∈ cs, (∃ p, c.bind columns = .ok p ∧ p row = .error fault) ↔ ∃ l cell,
        c.Reaches (Judged columns row) l ∧ l.Unordered columns row cell ∧
          fault = ConditionFault.unordered cell.text := fun c hc => by
      obtain ⟨p, -, hp⟩ := exists_of_mem_left hps hc
      simp [hp, ih c hc (fun l hl => hleaves l (List.mem_flatMap.2 ⟨c, hc, hl⟩)) hp]
    calc combine op ps row = .error fault
        ↔ FirstBad (fun p => p row = .ok (op = .and)) (fun p => p row = .error fault) ps := by
          simp [combine_eq_iff]
      _ ↔ FirstBad (Yields (Judged columns row) · (op = .and)) (fun c => ∃ l cell,
            c.Reaches (Judged columns row) l ∧ l.Unordered columns row cell ∧
              fault = ConditionFault.unordered cell.text) cs := by
          rw [firstBad_bound hps]
          exact firstBad_congr hyes hfails
      _ ↔ _ := by simp only [firstBad_exists, firstBad_and, reaches_group_iff]

/-- Over a null, or against one, an ordering comparison says no. -/
theorem judged_false_of_null {cell : Value} (ho : l.op.isOrdering) (hat : l.At columns row cell)
    (hnull : cell.isNull ∨ l.literal.isNull) : Judged columns row l false := by
  have hcompare := Value.compare?_eq_none_iff.2 hnull
  refine ⟨cell, hat, ?_⟩
  cases hop : l.op with
  | eq | ne | like => simp [hop, Comparator.isOrdering] at ho
  | gt | lt | ge | le => rw [test, hcompare]; rfl

theorem exists_unfit_iff (h : ∀ l ∈ c.leaves, l.literal.Countable) :
    (∃ fault, c.bind columns = .error fault) ↔ ∃ l ∈ c.leaves, ∃ fault, l.Unfit columns fault := by
  have hbound : (¬ ∃ p, c.bind columns = .ok p) ↔ _ := not_congr (exists_bind_iff h)
  simp only [Leaf.Fit, not_forall, not_not, exists_prop] at hbound
  rw [← hbound]
  cases c.bind columns <;> simp

/-- Binding fails if and only if something is wrong with a comparison anywhere in the condition,
for the first such comparison. A condition that is bound fails on a row if and only if going from
left to right, no further than needed, comes to a comparison that would order a cell that is
neither null nor a number, and for that cell. What is not come to never matters, and to order a null
or by a null is false. -/
theorem faults_of_binding_and_of_rows (hleaves : ∀ l ∈ c.leaves, l.literal.Countable)
    (hrow : ∀ v ∈ row, v.Countable) (hlength : row.length = columns.length) :
    ((∃ fault, c.bind columns = .error fault) ↔
      ∃ l ∈ c.leaves, ∃ fault, l.Unfit columns fault) ∧
    (∀ fault, c.bind columns = .error fault ↔
      FirstBad (Leaf.Fit columns) (Leaf.Unfit columns · fault) c.leaves) ∧
    ∀ p, c.bind columns = .ok p →
      (∀ yes, p row = .ok yes ↔ c.Yields (Judged columns row) yes) ∧
      (∀ fault, p row = .error fault ↔ ∃ l cell, c.Reaches (Judged columns row) l ∧
        l.Unordered columns row cell ∧ fault = ConditionFault.unordered cell.text) ∧
      (∀ op front d back, c = .group op (front ++ d :: back) →
        (∀ e ∈ front, e.Yields (Judged columns row) (op = .and)) →
        d.Yields (Judged columns row) (op ≠ .and) → p row = .ok (op ≠ .and)) ∧
      ∀ l ∈ c.leaves, ∀ cell, l.op.isOrdering → l.At columns row cell →
        cell.isNull ∨ l.literal.isNull → Judged columns row l false := by
  refine ⟨exists_unfit_iff hleaves, fun _ => bind_eq_error_iff hleaves, fun p hp =>
    ⟨fun _ => row_eq_ok_iff hlength hp, fun _ => row_eq_error_iff hleaves hrow hlength hp, ?_,
      fun l _ cell => judged_false_of_null⟩⟩
  rintro op front d back rfl hfront hd
  exact (row_eq_ok_iff hlength hp).2 (.settled hfront hd)

/-- A null is ordered to no effect, equality is asked next, and so the text `x` comes to be
ordered. -/
theorem faults_of_binding_and_of_rows_of_text :
    let c : Condition := .group .and [.group .or [.compare ['b'] .gt (.ofLiteral ['5']),
      .compare ['A'] .eq (.ofLiteral ['x'])], .compare ['a'] .le (.ofLiteral ['7'])]
    let columns : List Text := [Name.id, ['a'], ['b']]
    let row : Row := [.ofField ['1'], .ofField ['x'], .null]
    ∃ p, c.bind columns = .ok p ∧ p row = .error (ConditionFault.unordered ['x']) := by
  intro c columns row
  have hfield (t : Text) (h : ¬ Numeral.Overlong t) : (Value.ofField t).Legible :=
    ⟨.inl ⟨t, rfl⟩, by rwa [Value.ofField_text]⟩
  have hleaves : ∀ l ∈ c.leaves, l.literal.Countable := by
    have h5 : (Value.ofLiteral ['5']).Legible := ⟨.inr ⟨_, rfl⟩, by decide⟩
    have hx : (Value.ofLiteral ['x']).Legible := ⟨.inr ⟨_, rfl⟩, by decide⟩
    have h7 : (Value.ofLiteral ['7']).Legible := ⟨.inr ⟨_, rfl⟩, by decide⟩
    simp [c, leaves, leavesAll, h5.countable, hx.countable, h7.countable]
  have hrow : ∀ v ∈ row, v.Countable := by
    have hnull := hfield Keyword.NULL.text (by decide)
    simpa [row] using ⟨(hfield ['1'] (by decide)).countable, (hfield ['x'] (by decide)).countable,
      hnull.countable⟩
  have hlength : row.length = columns.length := rfl
  obtain ⟨-, -, hbound⟩ := faults_of_binding_and_of_rows hleaves hrow hlength
  obtain ⟨p, hp⟩ : ∃ p, c.bind columns = .ok p := ⟨_, rfl⟩
  have hb : Yields (Judged columns row) (.compare ['b'] .gt (.ofLiteral ['5'])) false :=
    .compare (l := ⟨['b'], .gt, .ofLiteral ['5']⟩) ⟨.null, ⟨2, rfl, rfl⟩, rfl⟩
  have ha : Yields (Judged columns row) (.compare ['A'] .eq (.ofLiteral ['x'])) true :=
    .compare (l := ⟨['A'], .eq, .ofLiteral ['x']⟩) ⟨.ofField ['x'], ⟨1, rfl, rfl⟩, rfl⟩
  have hor : Yields (Judged columns row) (.group .or [.compare ['b'] .gt (.ofLiteral ['5']),
      .compare ['A'] .eq (.ofLiteral ['x'])]) true :=
    @Yields.settled _ .or [_] [] _ (by simpa using hb) ha
  have hreach : c.Reaches (Judged columns row) ⟨['a'], .le, .ofLiteral ['7']⟩ :=
    @Reaches.group _ _ .and [_] [] _ (by simpa using hor) .compare
  refine ⟨p, hp, ((hbound p hp).2.1 _).2 ⟨_, .ofField ['x'], hreach, ?_, rfl⟩⟩
  exact ⟨⟨1, rfl, rfl⟩, rfl, rfl, rfl, by simp [Value.IsNumeric]; decide⟩

end Condition

end Tabular
