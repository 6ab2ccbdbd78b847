import Tabular.Proofs.Condition.Grammar
import Tabular.Proofs.Value.Overlong

/-!
# Conditions that stumble

Binding a condition reads the literals that something is ordered by, and judging a row reads cells
and literals, both up to the first comparison that settles the matter. Which comparison comes to an
integer that is too long is told for the condition as a whole.
-/

namespace Tabular.Condition

/-- Every literal that is a number is spelled as one. -/
inductive IsSpelled : Condition → Prop
  | compare {column : Text} {op : Comparator} {literal : Value} (spelled : literal.IsSpelled) :
    IsSpelled (.compare column op literal)
  | group {op : Connective} {operands : List Condition} (spelled : ∀ c ∈ operands, IsSpelled c) :
    IsSpelled (.group op operands)

/-- Binding comes to a comparison whose literal is too long to order by. -/
inductive StumblesBinding (columns : List Text) : Condition → Prop
  | compare {column : Text} {op : Comparator} {literal : Value} {i : Nat}
    (found : Name.find? columns column = some i) (orders : op.isOrdering)
    (long : literal.Overlong) : StumblesBinding columns (.compare column op literal)
  | group {op : Connective} {front back : List Condition} {c : Condition}
    (bound : ∀ d ∈ front, ∃ p, d.bind columns = .ok p) (stumbles : StumblesBinding columns c) :
    StumblesBinding columns (.group op (front ++ c :: back))

/-- What the condition says of a row, if it says anything. -/
def Says (columns : List Text) (row : Row) (answer : Bool) (c : Condition) : Prop :=
  ∃ p, c.bind columns = .ok p ∧ p row = .ok answer

/-- Judging the row comes to a comparison that stumbles. The operands before it leave the matter
open, as true ones do under AND and false ones under OR. -/
inductive StumblesOn (columns : List Text) (row : Row) : Condition → Prop
  | compare {column : Text} {op : Comparator} {literal : Value} {i : Nat}
    (found : Name.find? columns column = some i) (reads : op ≠ .like)
    (stumbles : (row.getD i Value.null).Stumbles literal) :
    StumblesOn columns row (.compare column op literal)
  | group {op : Connective} {front back : List Condition} {c : Condition}
    (leaves : ∀ d ∈ front, d.Says columns row (op = .and)) (stumbles : StumblesOn columns row c) :
    StumblesOn columns row (.group op (front ++ c :: back))

variable {columns : List Text} {row : Row} {column : Text} {op : Comparator} {literal : Value}
  {connective : Connective} {operands : List Condition} {c : Condition} {p : Predicate}

theorem stumblesBinding_group_iff : StumblesBinding columns (.group connective operands) ↔
    FirstBad (fun c => ∃ p, c.bind columns = .ok p) (StumblesBinding columns) operands := by
  constructor
  · rintro (_ | ⟨hb, hs⟩)
    exact ⟨_, _, _, rfl, hb, hs⟩
  · rintro ⟨front, c, back, rfl, hb, hs⟩
    exact .group hb hs

theorem stumblesOn_group_iff : StumblesOn columns row (.group connective operands) ↔
    FirstBad (Says columns row (connective = .and)) (StumblesOn columns row) operands := by
  constructor
  · rintro (_ | ⟨hl, hs⟩)
    exact ⟨_, _, _, rfl, hl, hs⟩
  · rintro ⟨front, c, back, rfl, hl, hs⟩
    exact .group hl hs

/-! ## Binding -/

theorem balks_checkLiteral_iff (hl : literal.IsSpelled) :
    Balks (checkLiteral op literal) ↔ op.isOrdering ∧ literal.Overlong := by
  unfold checkLiteral
  cases ho : op.isOrdering with
  | false => simp
  | true =>
    cases hn : literal.isNull with
    | true =>
      have : ¬ literal.Overlong := fun h => by simp [h.isNull] at hn
      simp [this]
    | false =>
      simp only [Bool.not_false, Bool.and_self, if_true, true_and]
      rw [balks_bind_of_not, balks_mapError_number, Value.exists_number?_error_iff hl]
      intro n
      cases n <;> simp

theorem balks_bindCompare_iff (hl : literal.IsSpelled) :
    Balks (bindCompare columns column op literal) ↔
      StumblesBinding columns (.compare column op literal) := by
  unfold bindCompare
  rw [balks_bind]
  simp only [not_balks_mapError_rejected, false_or, Except.mapError_eq_ok_iff,
    Name.resolve_eq_ok_iff]
  constructor
  · rintro ⟨i, hi, h⟩
    rw [balks_bind_of_not fun _ => not_balks_pure _, balks_checkLiteral_iff hl] at h
    exact .compare hi h.1 h.2
  · rintro ⟨hi, ho, h⟩
    refine ⟨_, hi, ?_⟩
    rw [balks_bind_of_not fun _ => not_balks_pure _, balks_checkLiteral_iff hl]
    exact ⟨ho, h⟩

theorem balks_bindAll (columns : List Text) (cs : List Condition) :
    Balks (bindAll columns cs) ↔
      FirstBad (fun c => ∃ p, c.bind columns = .ok p) (fun c => Balks (c.bind columns)) cs :=
  balks_through (bindAll columns) rfl (fun _ _ => rfl) cs

/-- Binding a condition balks exactly where it stumbles. -/
theorem balks_bind_iff (hc : c.IsSpelled) : Balks (c.bind columns) ↔ c.StumblesBinding columns := by
  induction hc with
  | compare hl => exact balks_bindCompare_iff hl
  | @group op operands _ ih =>
    rw [bind, balks_bind_of_not fun _ => not_balks_pure _, balks_bindAll, stumblesBinding_group_iff]
    exact firstBad_congr (fun _ _ => Iff.rfl) ih

/-! ## Judging a row -/

theorem balks_test_iff {cell : Value} (hc : cell.IsSpelled) (hl : literal.IsSpelled) :
    Balks (test op cell literal) ↔ op ≠ .like ∧ cell.Stumbles literal := by
  have hequals := Value.balks_equals_iff hc hl
  have hcompare {k : Option Ordering → Except Failure Bool} (hk : ∀ o, ¬ Balks (k o)) :
      Balks (cell.compare? literal >>= k) ↔ cell.Stumbles literal :=
    (balks_bind_of_not hk).trans (Value.balks_compare?_iff hc hl)
  cases op with
  | eq => simpa [test] using hequals
  | ne =>
    have hmap : ((cell.equals literal).map (! ·)).mapError Failure.number =
        ((cell.equals literal).mapError Failure.number).map (! ·) := by
      cases cell.equals literal <;> rfl
    rw [test, hmap, balks_map, hequals]
    simp
  | like => simp [test]
  | gt | lt | ge | le =>
    rw [test, hcompare fun o => by cases o <;> exact not_balks_ok _]
    simp

theorem balks_compare_iff (hl : literal.IsSpelled) (hrow : ∀ v ∈ row, v.IsSpelled)
    (hp : (compare column op literal).bind columns = .ok p) :
    Balks (p row) ↔ StumblesOn columns row (.compare column op literal) := by
  rw [bind, bindCompare] at hp
  obtain ⟨i, hi, hp⟩ := Except.bind_eq_ok_iff.1 hp
  obtain ⟨_, -, hp⟩ := Except.bind_eq_ok_iff.1 hp
  cases hp
  have hi := Name.resolve_eq_ok_iff.1 (Except.mapError_eq_ok_iff.1 hi)
  rw [balks_test_iff (Value.isSpelled_getD hrow i) hl]
  constructor
  · rintro ⟨hop, hs⟩
    exact .compare hi hop hs
  · rintro (⟨hi', hop, hs⟩ | _)
    cases hi.symm.trans hi'
    exact ⟨hop, hs⟩

/-- Tests in order balk at the first one that balks, if those before it leave the matter open. -/
theorem balks_combine (connective : Connective) (ps : List Predicate) (row : Row) :
    Balks (combine connective ps row) ↔
      FirstBad (fun p => p row = .ok (connective = .and)) (fun p => Balks (p row)) ps := by
  induction ps with
  | nil => cases connective <;> simp [combine]
  | cons p ps ih =>
    rw [firstBad_cons, ← ih]
    cases connective with
    | and =>
      simp only [combine, allOf, balks_bind]
      refine or_congr_right ⟨?_, ?_⟩
      · rintro ⟨yes, hyes, h⟩
        cases yes with
        | true => exact ⟨by simpa using hyes, h⟩
        | false => exact absurd h (not_balks_ok _)
      · rintro ⟨hyes, h⟩
        exact ⟨true, by simpa using hyes, h⟩
    | or =>
      simp only [combine, anyOf, balks_bind]
      refine or_congr_right ⟨?_, ?_⟩
      · rintro ⟨yes, hyes, h⟩
        cases yes with
        | true => exact absurd h (not_balks_ok _)
        | false => exact ⟨by simpa using hyes, h⟩
      · rintro ⟨hyes, h⟩
        exact ⟨false, by simpa using hyes, h⟩

theorem bindAll_eq_ok_iff {cs : List Condition} {ps : List Predicate} :
    bindAll columns cs = .ok ps ↔ List.Forall₂ (fun c p => c.bind columns = .ok p) cs ps := by
  rw [← Except.mapM_eq_ok_iff]
  have h : bindAll columns cs = cs.mapM (bind columns) := by
    induction cs with
    | nil => rfl
    | cons c cs ih => rw [bindAll, ih, List.mapM_cons]
  rw [h]

/-- Operands are as good or bad as what they are bound to. -/
theorem firstBad_bound {good bad : Predicate → Prop} {cs : List Condition} {ps : List Predicate}
    (h : List.Forall₂ (fun c p => c.bind columns = .ok p) cs ps) :
    FirstBad good bad ps ↔ FirstBad (fun c => ∃ p, c.bind columns = .ok p ∧ good p)
      (fun c => ∃ p, c.bind columns = .ok p ∧ bad p) cs := by
  induction h with
  | nil => simp
  | @cons c p cs ps hp _ ih => simp [firstBad_cons, ih, hp]

/-- A condition that is bound balks at a row exactly where it stumbles. -/
theorem balks_row_iff (hc : c.IsSpelled) (hrow : ∀ v ∈ row, v.IsSpelled)
    (hp : c.bind columns = .ok p) : Balks (p row) ↔ c.StumblesOn columns row := by
  induction hc generalizing p with
  | compare hl => exact balks_compare_iff hl hrow hp
  | @group op operands _ ih =>
    rw [bind] at hp
    obtain ⟨ps, hps, hp⟩ := Except.bind_eq_ok_iff.1 hp
    cases hp
    have hps := bindAll_eq_ok_iff.1 hps
    rw [balks_combine, firstBad_bound hps, stumblesOn_group_iff]
    refine firstBad_congr (fun c _ => Iff.rfl) fun c hc => ?_
    obtain ⟨p, -, hp⟩ := exists_of_mem_left hps hc
    simp [hp, ih c hc hp]

/-! ## Conditions that are read -/

theorem isSpelled_of_literal? {l : Lexeme} {v : Value} (h : l.literal? = some v) :
    v.IsSpelled := by
  cases l with
  | keyword k =>
    cases k <;> cases h <;> exact Value.isSpelled_ofLiteral _
  | operator o => cases h
  | mark m => cases h
  | _ =>
    cases h
    exact Value.isSpelled_ofLiteral _

theorem isSpelled_grouped {cs : List Condition} (h : ∀ c ∈ cs, c.IsSpelled) :
    (grouped connective cs).IsSpelled := by
  unfold grouped
  split
  · exact h _ (by simp)
  · exact .group h

mutual

theorem Disjunction.isSpelled_operands (d : Disjunction) : ∀ c ∈ d.operands, c.IsSpelled := by
  match d with
  | .one c =>
    intro operand h
    rw [List.mem_singleton.1 h, c.tree_eq]
    exact isSpelled_grouped c.isSpelled_operands
  | .or c rest =>
    refine List.forall_mem_cons.2 ⟨?_, rest.isSpelled_operands⟩
    rw [c.tree_eq]
    exact isSpelled_grouped c.isSpelled_operands

theorem Conjunction.isSpelled_operands (c : Conjunction) : ∀ d ∈ c.operands, d.IsSpelled := by
  match c with
  | .one p =>
    intro operand h
    rw [List.mem_singleton.1 h]
    exact p.isSpelled_tree
  | .and p rest => exact List.forall_mem_cons.2 ⟨p.isSpelled_tree, rest.isSpelled_operands⟩

theorem Primary.isSpelled_tree (p : Primary) : p.tree.IsSpelled := by
  match p with
  | .comparison c => exact .compare (isSpelled_of_literal? (Option.some_get _).symm)
  | .group d =>
    rw [Primary.tree, d.tree_eq]
    exact isSpelled_grouped d.isSpelled_operands

end

theorem isSpelled_of_read {ts rest : List Token} (h : read ts = .ok (c, rest)) : c.IsSpelled := by
  obtain ⟨d, us, -, -, -, rfl⟩ := read_eq_ok_iff.1 h
  rw [d.tree_eq]
  exact isSpelled_grouped d.isSpelled_operands

end Tabular.Condition
