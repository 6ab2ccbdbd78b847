import Tabular.Proofs.Condition.Grammar
import Tabular.Proofs.Cursor.Follows

/-!
# Conditions read by a cursor

A walk descends into the operands of a condition, and a reader keeps a stack of open groups. On any
tokens they take the same tokens off the front and make the same condition of them, or come to the
same fault. For what they take there is a derivation, and the fault does not depend on the groups
around.
-/

namespace Tabular.Cursor

open Condition

/-! ## Faults of the reader -/

section Faults

variable {f : Frame} {outer : List Frame} {x : Token} {ts : List Token} {column : Text}
  {op : Comparator} {last : Condition}

theorem readFrom_assign (h : x.lexeme = .operator .assign) :
    readFrom f outer (.comparator column) (x :: ts) = .error (.singleEquals column) := by
  simp [readFrom, h, Operator.comparator?]

theorem readFrom_no_comparator (h : ∀ x ∈ ts.head?, x.lexeme.comparator? = none)
    (hne : ∀ x ∈ ts.head?, x.lexeme ≠ .operator .assign) :
    readFrom f outer (.comparator column) ts = .error (.noComparator column) := by
  cases ts with
  | nil => rw [readFrom]
  | cons x us =>
    have hx := h x rfl
    cases hl : x.lexeme with
    | keyword k =>
      rw [hl] at hx
      cases k with
      | LIKE => cases hx
      | _ => simp only [readFrom, hl]
    | operator o =>
      rw [hl] at hx
      cases o with
      | assign => exact absurd hl (hne x rfl)
      | _ => cases hx
    | _ => simp only [readFrom, hl]

theorem readFrom_no_literal (h : ∀ x ∈ ts.head?, x.lexeme.literal? = none) :
    readFrom f outer (.literal column op) ts = .error (.noLiteral column op) := by
  cases ts with
  | nil => rw [readFrom]
  | cons x us => rw [readFrom, h x rfl]

theorem readFrom_not_column (hopening : x.lexeme ≠ .mark .opening)
    (hclosing : x.lexeme ≠ .mark .closing) (h : x.lexeme.column? = none) :
    readFrom f outer .operand (x :: ts) = .error (.notColumn x.text) := by
  cases hl : x.lexeme with
  | identifier t | number t => rw [hl] at h; cases h
  | mark m =>
    cases m with
    | opening => exact absurd hl hopening
    | closing => exact absurd hl hclosing
    | _ => rw [readFrom, hl]
  | _ => rw [readFrom, hl]

/-- Behind the last operand of a group there has to be the end of the group. -/
theorem readFrom_not_closed {g : Frame} (hs : Stops ts)
    (hne : ∀ x ∈ ts.head?, x.lexeme ≠ .mark .closing) :
    readFrom f (g :: outer) (.connective last) ts = .error .unbalanced := by
  cases ts with
  | nil => rw [readFrom]
  | cons x us =>
    obtain ⟨hand, hor⟩ := stops_cons.1 hs
    cases hl : x.lexeme with
    | keyword k =>
      cases k with
      | AND => exact absurd hl hand
      | OR => exact absurd hl hor
      | _ => simp only [readFrom, hl]
    | mark m =>
      cases m with
      | closing => exact absurd hl (hne x rfl)
      | _ => simp only [readFrom, hl]
    | _ => simp only [readFrom, hl]

end Faults

/-! ## Comparisons -/

section Comparisons

variable {p : Nat} {x : Token} {ts : List Token} {column : Text} {op : Comparator}

theorem comparator?_ofToken : (Entry.ofToken x).comparator? = x.lexeme.comparator? := by
  unfold Entry.comparator?
  simp only [isKeyword_ofToken]
  have hsigns : (Entry.ofToken x).isOperator = fun o => decide (x.lexeme = .operator o) :=
    funext isOperator_ofToken
  rw [hsigns]
  cases hl : x.lexeme with
  | keyword k => cases k <;> simp [Entry.comparators, Lexeme.comparator?]
  | operator o => cases o <;> simp [Entry.comparators, Lexeme.comparator?, Operator.comparator?]
  | _ => simp [Entry.comparators, Lexeme.comparator?]

theorem gives_comparedWith_some {v : Value} (h : x.lexeme.literal? = some v) :
    Gives p (comparedWith column op) (x :: ts) (.ok (v, ts)) := fun _ _ ht =>
  ⟨_, ends_comparedWith_some ht.entry (literal?_ofToken.trans h), ht.move⟩

theorem gives_comparedWith_none (h : ∀ x ∈ ts.head?, x.lexeme.literal? = none) :
    Gives p (comparedWith column op) ts (.error (.condition (.noLiteral column op))) := by
  have hfront : (front p ts).literal? = none := by
    cases ts with
    | nil => rfl
    | cons x us => exact literal?_ofToken.trans (h x rfl)
  exact fun _ _ ht => ⟨_, ends_comparedWith_none ht.entry hfront⟩

theorem head?_comparator? (h : (front p ts).comparator? = none) :
    ∀ x ∈ ts.head?, x.lexeme.comparator? = none := by
  cases ts with
  | nil => nofun
  | cons x us => simpa [front, comparator?_ofToken] using h

theorem kind_ofToken :
    ((Entry.ofToken x).kind = .identifier ∨ (Entry.ofToken x).kind = .number) ↔
      x.lexeme.column?.isSome := by
  cases hl : x.lexeme <;> simp [Entry.ofToken, kindOf, hl, Lexeme.column?]

theorem text_of_column? (h : x.lexeme.column? = some column) :
    x.text = column := by
  cases hl : x.lexeme <;> rw [hl] at h <;> cases h <;> simp [Token.text, Lexeme.text, hl]

theorem gives_comparison_of_column {r : Except Rejection (Condition × List Token)}
    (h : x.lexeme.column? = some column) (hr : Gives p (comparedColumn column) ts r) :
    Gives p comparison (x :: ts) r := by
  have hstop : (front p (x :: ts)).isStop = false := isStop_ofToken
  have hclosing : (front p (x :: ts)).isMark .closing = false := by
    refine (testsFor_mark .closing).fail ?_
    rintro y ⟨⟩ hl
    rw [hl] at h
    cases h
  have hkind : (front p (x :: ts)).kind = .identifier ∨ (front p (x :: ts)).kind = .number :=
    kind_ofToken.2 (by simp [h])
  refine gives_current.bind_ok ?_
  simp only [hstop, hclosing, hkind]
  rw [← text_of_column? h] at hr
  exact gives_advance.bind_ok hr

/-- Behind a column a comparator and a literal stand, or walk and reader come to one fault. -/
theorem gives_comparedColumn (p : Nat) (column : Text) (ts : List Token) :
    (∃ y z rest op v, ts = y :: z :: rest ∧ y.lexeme.comparator? = some op ∧
      z.lexeme.literal? = some v ∧
      Gives p (comparedColumn column) ts (.ok (.compare column op v, rest))) ∨
    ∃ e, Gives p (comparedColumn column) ts (.error (.condition e)) ∧
      ∀ f outer, readFrom f outer (.comparator column) ts = .error e := by
  cases hsign : (front p ts).comparator? with
  | none =>
    refine .inr ?_
    obtain ⟨y, us, rfl, hy⟩ | hne := begins_or (.operator .assign) ts
    · have hpass : (front p (y :: us)).isOperator .assign := (testsFor_operator .assign).pass hy
      refine ⟨.singleEquals column, gives_current.bind_ok ?_, fun f outer => readFrom_assign hy⟩
      simp only [hsign, hpass, if_true]
      exact gives_reject _
    · have hfail : (front p ts).isOperator .assign = false := (testsFor_operator .assign).fail hne
      refine ⟨.noComparator column, gives_current.bind_ok ?_, fun f outer =>
        readFrom_no_comparator (head?_comparator? hsign) hne⟩
      simp only [hsign, hfail]
      exact gives_reject _
  | some op =>
    cases ts with
    | nil => cases hsign
    | cons y us =>
      have hy := comparator?_ofToken.symm.trans hsign
      have hwalk : ∀ {r}, Gives p (comparedWith column op) us r → Gives p (comparedColumn column)
          (y :: us) (r >>= fun v => .ok (.compare column op v.1, v.2)) := by
        intro r hr
        refine gives_current.bind_ok ?_
        rw [hsign]
        exact gives_advance.bind_ok (hr.bind fun v rest _ => gives_pure _)
      cases hv : us.head?.bind (·.lexeme.literal?) with
      | some v =>
        obtain ⟨z, hz, hzv⟩ := Option.bind_eq_some_iff.1 hv
        obtain ⟨rest, rfl⟩ := List.head?_eq_some_iff.1 hz
        exact .inl ⟨y, z, rest, op, v, rfl, hy, hzv, hwalk (gives_comparedWith_some hzv)⟩
      | none =>
        have hnone := Option.bind_eq_none_iff.1 hv
        refine .inr ⟨.noLiteral column op, hwalk (gives_comparedWith_none hnone), fun f outer => ?_⟩
        rw [readFrom_comparator hy, readFrom_no_literal hnone]

end Comparisons

/-! ## What walk and reader agree on -/

section Takes

variable {α δ : Type} {p : Nat} {w : Walk α} {ts : List Token} {yield : δ → List Lexeme}
  {result : δ → α} {stops : List Token → Prop}

/-- The walk takes lexemes off the front that some derivation makes up, and what is left is as
wanted; or the walk comes to the fault to which the reader comes in any group. -/
inductive Takes (p : Nat) (w : Walk α) (yield : δ → List Lexeme) (result : δ → α)
    (stops : List Token → Prop) (ts : List Token) : Prop
  | made (d : δ) (us rest : List Token) (hts : ts = us ++ rest)
      (hd : us.map Token.lexeme = yield d) (hw : Gives p w ts (.ok (result d, rest)))
      (hstops : stops rest)
  | fault (e : ConditionFault) (hw : Gives p w ts (.error (.condition e)))
      (hread : ∀ f outer, readFrom f outer .operand ts = .error e)

/-- What does not begin with a parenthesis is a comparison, if it is anything. -/
theorem takes_comparison (hopening : ∀ x ∈ ts.head?, x.lexeme ≠ .mark .opening) :
    Takes p comparison Primary.yield Primary.tree (fun _ => True) ts := by
  cases ts with
  | nil =>
    exact .fault .endsEarly (gives_current.bind_ok (gives_reject _)) fun _ _ => by rw [readFrom]
  | cons x us =>
    have hstop : (front p (x :: us)).isStop = false := isStop_ofToken
    by_cases hclosing : x.lexeme = .mark .closing
    · have hpass : (front p (x :: us)).isMark .closing := (testsFor_mark .closing).pass hclosing
      refine .fault .unbalanced (gives_current.bind_ok ?_) fun _ _ => by rw [readFrom, hclosing]
      simp only [hstop, hpass, if_true]
      exact gives_reject _
    · have hfail : (front p (x :: us)).isMark .closing = false :=
        (testsFor_mark .closing).fail (by simpa using hclosing)
      cases hcolumn : x.lexeme.column? with
      | none =>
        refine .fault (.notColumn x.text) (gives_current.bind_ok ?_) fun _ _ =>
          readFrom_not_column (hopening x rfl) hclosing hcolumn
        have hkind : ¬((front p (x :: us)).kind = .identifier ∨
            (front p (x :: us)).kind = .number) := fun h => by
          have := kind_ofToken.1 h
          simp [hcolumn] at this
        simp only [hstop, hfail, hkind]
        exact gives_reject _
      | some column =>
        obtain ⟨y, z, rest, op, v, rfl, hy, hz, hgives⟩ | ⟨e, hgives, hread⟩ :=
          gives_comparedColumn p column us
        · let c : Comparison :=
            ⟨x.lexeme, y.lexeme, z.lexeme, by simp [hcolumn], by simp [hy], by simp [hz]⟩
          have hc : c.tree = .compare column op v := by simp [c, Comparison.tree, hcolumn, hy, hz]
          refine .made (.comparison c) [x, y, z] rest rfl rfl ?_ trivial
          rw [Primary.tree, hc]
          exact gives_comparison_of_column hcolumn hgives
        · refine .fault e (gives_comparison_of_column hcolumn hgives) fun f outer => ?_
          rw [readFrom_column hcolumn, hread]

end Takes

section Induction

variable {p : Nat} {x : Token} {ts : List Token}

/-- The tokens go on with no AND. -/
def StopsAnd (ts : List Token) : Prop := ∀ x ∈ ts.head?, x.lexeme ≠ .keyword .AND

abbrev TakesPrimary (p : Nat) (ts : List Token) : Prop :=
  Takes p primary Primary.yield Primary.tree (fun _ => True) ts

abbrev TakesConjuncts (p : Nat) (ts : List Token) : Prop :=
  Takes p conjuncts Conjunction.yield Conjunction.operands StopsAnd ts

abbrev TakesDisjuncts (p : Nat) (ts : List Token) : Prop :=
  Takes p disjuncts Disjunction.yield Disjunction.operands Stops ts

theorem takesConjunction (h : TakesConjuncts p ts) :
    Takes p conjunction Conjunction.yield Conjunction.tree StopsAnd ts := by
  rw [conjunction_eq]
  cases h with
  | made c us rest hts hd hw hs =>
    refine .made c us rest hts hd ?_ hs
    rw [c.tree_eq]
    exact Gives.tick (hw.bind_ok (gives_pure _))
  | fault e hw hread => exact .fault e hw.bind_error.tick hread

theorem takesDisjunction (h : TakesDisjuncts p ts) :
    Takes p disjunction Disjunction.yield Disjunction.tree Stops ts := by
  rw [disjunction_eq]
  cases h with
  | made d us rest hts hd hw hs =>
    refine .made d us rest hts hd ?_ hs
    rw [d.tree_eq]
    exact Gives.tick (hw.bind_ok (gives_pure _))
  | fault e hw hread => exact .fault e hw.bind_error.tick hread

theorem takesPrimary (ih : ∀ us, us.length < ts.length → TakesDisjuncts p us) :
    TakesPrimary p ts := by
  have hopening := testsFor_mark .opening
  have hclosing := testsFor_mark .closing
  rw [TakesPrimary, primary_eq]
  obtain ⟨x, us, rfl, hx⟩ | hne := begins_or (.mark .opening) ts
  · cases takesDisjunction (ih us (Nat.lt_succ_self _)) with
    | made d vs rest hts hd hw hs =>
      obtain ⟨y, ws, rfl, hy⟩ | hne := begins_or (.mark .closing) rest
      · refine .made (.group d) (x :: (vs ++ [y])) ws (by simp [hts])
          (by simp [Primary.yield, hx, hy, hd]) (gives_entered hopening hx ?_).tick trivial
        exact hw.bind_ok ((gives_accept_pass (hclosing.pass hy)).bind_ok (gives_pure _))
      · refine .fault .unbalanced (gives_entered hopening hx ?_).tick fun f outer => ?_
        · exact hw.bind_ok ((gives_accept_fail (hclosing.fail hne)).bind_ok (gives_reject _))
        · rw [readFrom_opening hx, hts, d.readFrom_eq _ _ hd, readFrom_not_closed hs hne]
    | fault e hw hread =>
      refine .fault e (gives_entered hopening hx hw.bind_error).tick fun f outer => ?_
      rw [readFrom_opening hx, hread]
  · cases takes_comparison (p := p) hne with
    | made d us rest hts hd hw hs =>
      exact .made d us rest hts hd (gives_not_entered hopening hne hw).tick hs
    | fault e hw hread => exact .fault e (gives_not_entered hopening hne hw).tick hread

theorem takesConjuncts (hprimary : TakesPrimary p ts)
    (ih : ∀ us, us.length < ts.length → TakesConjuncts p us) : TakesConjuncts p ts := by
  have hand := testsFor_keyword .AND
  rw [TakesConjuncts, conjuncts, morePrimaries_eq]
  cases hprimary with
  | made c us rest hts hd hw _ =>
    subst hts
    obtain ⟨x, vs, rfl, hx⟩ | hne := begins_or (.keyword .AND) rest
    · cases ih vs (by simp; omega) with
      | made cs ws last hvs hcs hws hs =>
        refine .made (.and c cs) (us ++ x :: ws) last (by simp [hvs])
          (by simp [Conjunction.yield, hd, hx, hcs]) ?_ hs
        exact hw.bind_ok ((gives_entered hand hx hws).tick.bind_ok (gives_pure _))
      | fault e hvs hread =>
        refine .fault e (hw.bind_ok (gives_entered hand hx hvs).tick.bind_error) fun f outer => ?_
        rw [c.readFrom_eq _ _ hd, readFrom_and hx, hread]
    · refine .made (.one c) us rest rfl hd ?_ hne
      exact hw.bind_ok ((gives_not_entered hand hne (gives_pure [])).tick.bind_ok (gives_pure _))
  | fault e hw hread => exact .fault e hw.bind_error hread

theorem takesDisjuncts (hconjunction : Takes p conjunction Conjunction.yield Conjunction.tree
    StopsAnd ts) (ih : ∀ us, us.length < ts.length → TakesDisjuncts p us) :
    TakesDisjuncts p ts := by
  have hor := testsFor_keyword .OR
  rw [TakesDisjuncts, disjuncts, moreConjunctions_eq]
  cases hconjunction with
  | made c us rest hts hd hw hs =>
    subst hts
    obtain ⟨x, vs, rfl, hx⟩ | hne := begins_or (.keyword .OR) rest
    · cases ih vs (by simp; omega) with
      | made cs ws last hvs hcs hws hs =>
        refine .made (.or c cs) (us ++ x :: ws) last (by simp [hvs])
          (by simp [Disjunction.yield, hd, hx, hcs]) ?_ hs
        exact hw.bind_ok ((gives_entered hor hx hws).tick.bind_ok (gives_pure _))
      | fault e hvs hread =>
        refine .fault e (hw.bind_ok (gives_entered hor hx hvs).tick.bind_error) fun f outer => ?_
        rw [c.readFrom_eq _ _ hd, readFrom_or hx, hread]
    · refine .made (.one c) us rest rfl hd ?_ fun x hx => ⟨hs x hx, hne x hx⟩
      exact hw.bind_ok ((gives_not_entered hor hne (gives_pure [])).tick.bind_ok (gives_pure _))
  | fault e hw hread => exact .fault e hw.bind_error hread

theorem takes_all (p : Nat) (ts : List Token) :
    TakesPrimary p ts ∧ TakesConjuncts p ts ∧ TakesDisjuncts p ts := by
  -- On the number of tokens: a connective and a parenthesis leave fewer.
  induction hn : ts.length using Nat.strongRecOn generalizing ts with
  | ind n ih =>
    subst hn
    have hprimary := takesPrimary fun us hu => (ih _ hu us rfl).2.2
    have hconjuncts := takesConjuncts hprimary fun us hu => (ih _ hu us rfl).2.1
    exact ⟨hprimary, hconjuncts,
      takesDisjuncts (takesConjunction hconjuncts) fun us hu => (ih _ hu us rfl).2.2⟩

/-- To read a condition by a cursor is to read it. -/
theorem gives_disjunction (p : Nat) (ts : List Token) :
    Gives p disjunction ts ((Condition.read ts).mapError Rejection.condition) := by
  cases takesDisjunction (takes_all p ts).2.2 with
  | made d us rest hts hd hw hs =>
    have hread := read_eq_ok_iff.2 ⟨d, us, hts, hd, hs, rfl⟩
    rw [hread]
    exact hw
  | fault e hw hread =>
    rw [Condition.read, hread]
    exact hw

end Induction

end Tabular.Cursor
