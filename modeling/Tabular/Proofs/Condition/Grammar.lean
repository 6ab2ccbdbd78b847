import Tabular.Condition.Reader

/-!
# The grammar of conditions

A condition is conditions joined by OR, each of them conditions joined by AND, and each of these a
comparison or a condition in parentheses. A derivation is a way to make up lexemes by these rules.
What the reader takes is exactly what has a derivation, no lexemes have two, and what is read is the
tree of the derivation.
-/

namespace Tabular

namespace Lexeme

/-- The column that a lexeme may name in a condition. -/
def column? : Lexeme → Option Text
  | identifier t | number t => some t
  | keyword _ | string _ | operator _ | mark _ => none

/-- The comparator that a lexeme may stand for. -/
def comparator? : Lexeme → Option Comparator
  | keyword .LIKE => some .like
  | operator o => o.comparator?
  | keyword _ | identifier _ | number _ | string _ | mark _ => none

end Lexeme

namespace Condition

/-! ## Derivations -/

structure Comparison where
  column : Lexeme
  sign : Lexeme
  literal : Lexeme
  names : column.column?.isSome
  compares : sign.comparator?.isSome
  stands : literal.literal?.isSome

mutual

/-- One conjunction, or several with OR between them. -/
inductive Disjunction where
  | one (c : Conjunction)
  | or (c : Conjunction) (rest : Disjunction)

/-- One primary, or several with AND between them. -/
inductive Conjunction where
  | one (p : Primary)
  | and (p : Primary) (rest : Conjunction)

inductive Primary where
  | comparison (c : Comparison)
  | group (inner : Disjunction)

end

def Comparison.tree (c : Comparison) : Condition :=
  .compare (c.column.column?.get c.names) (c.sign.comparator?.get c.compares)
    (c.literal.literal?.get c.stands)

mutual

/-- The lexemes that a derivation makes up. -/
def Disjunction.yield : Disjunction → List Lexeme
  | .one c => c.yield
  | .or c rest => c.yield ++ .keyword .OR :: rest.yield

def Conjunction.yield : Conjunction → List Lexeme
  | .one p => p.yield
  | .and p rest => p.yield ++ .keyword .AND :: rest.yield

def Primary.yield : Primary → List Lexeme
  | .comparison c => [c.column, c.sign, c.literal]
  | .group inner => .mark .opening :: (inner.yield ++ [.mark .closing])

end

mutual

/-- The condition of a derivation: a group for two operands or more, and nothing for parentheses. -/
def Disjunction.tree : Disjunction → Condition
  | .one c => c.tree
  | .or c rest => .group .or (c.tree :: rest.operands)

def Disjunction.operands : Disjunction → List Condition
  | .one c => [c.tree]
  | .or c rest => c.tree :: rest.operands

def Conjunction.tree : Conjunction → Condition
  | .one p => p.tree
  | .and p rest => .group .and (p.tree :: rest.operands)

def Conjunction.operands : Conjunction → List Condition
  | .one p => [p.tree]
  | .and p rest => p.tree :: rest.operands

def Primary.tree : Primary → Condition
  | .comparison c => c.tree
  | .group inner => inner.tree

end

/-- The derivation makes up the lexemes of the tokens. -/
def Disjunction.Derives (d : Disjunction) (ts : List Token) : Prop :=
  ts.map Token.lexeme = d.yield

/-! ## Trees -/

theorem Disjunction.tree_eq (d : Disjunction) : d.tree = grouped .or d.operands := by
  cases d with
  | one c => rfl
  | or c rest => cases rest <;> rfl

theorem Conjunction.tree_eq (c : Conjunction) : c.tree = grouped .and c.operands := by
  cases c with
  | one p => rfl
  | and p rest => cases rest <;> rfl

/-- The innermost group and the last operand once a conjunction has been read. -/
def Conjunction.walk (f : Frame) : Conjunction → Frame × Condition
  | .one p => (f, p.tree)
  | .and p rest => rest.walk (f.conjoin p.tree)

/-- The innermost group and the last operand once a disjunction has been read. -/
def Disjunction.walk (f : Frame) : Disjunction → Frame × Condition
  | .one c => c.walk f
  | .or c rest => rest.walk ((c.walk f).1.alternate (c.walk f).2)

theorem Conjunction.conjunction_walk (c : Conjunction) (f : Frame) :
    (c.walk f).1.alternatives = f.alternatives ∧
      (c.walk f).1.conjunction (c.walk f).2 = grouped .and (f.conjuncts.reverse ++ c.operands) := by
  match c with
  | .one p => exact ⟨rfl, rfl⟩
  | .and p rest =>
    obtain ⟨ha, hc⟩ := rest.conjunction_walk (f.conjoin p.tree)
    refine ⟨ha, hc.trans ?_⟩
    simp [Frame.conjoin, Conjunction.operands]

theorem Disjunction.close_walk (d : Disjunction) {f : Frame} (hf : f.conjuncts = []) :
    (d.walk f).1.close (d.walk f).2 = grouped .or (f.alternatives.reverse ++ d.operands) := by
  match d with
  | .one c =>
    obtain ⟨ha, hc⟩ := c.conjunction_walk f
    rw [walk, Frame.close, ha, hc, hf, operands, c.tree_eq]
    rfl
  | .or c rest =>
    obtain ⟨ha, hc⟩ := c.conjunction_walk f
    rw [walk, rest.close_walk rfl, Frame.alternate, ha, hc, hf, operands, c.tree_eq]
    simp

/-- Read into a new group, a disjunction is the whole of it. -/
theorem Disjunction.close_walk_empty (d : Disjunction) :
    (d.walk .empty).1.close (d.walk .empty).2 = d.tree := by
  rw [d.close_walk rfl, d.tree_eq]
  rfl

/-! ## What has a derivation is read -/

section Reading

variable {f : Frame} {outer : List Frame} {t : Token} {ts rest : List Token} {last c : Condition}

attribute [local simp] readFrom

theorem readFrom_opening (h : t.lexeme = .mark .opening) :
    readFrom f outer .operand (t :: ts) = readFrom .empty (f :: outer) .operand ts := by
  rw [readFrom, h]

theorem readFrom_closing {g : Frame} (h : t.lexeme = .mark .closing) :
    readFrom f (g :: outer) (.connective last) (t :: ts) =
      readFrom g outer (.connective (f.close last)) ts := by
  simp [h]

theorem readFrom_and (h : t.lexeme = .keyword .AND) :
    readFrom f outer (.connective last) (t :: ts) =
      readFrom (f.conjoin last) outer .operand ts := by
  cases outer <;> simp [h]

theorem readFrom_or (h : t.lexeme = .keyword .OR) :
    readFrom f outer (.connective last) (t :: ts) =
      readFrom (f.alternate last) outer .operand ts := by
  cases outer <;> simp [h]

theorem readFrom_column {column : Text} (h : t.lexeme.column? = some column) :
    readFrom f outer .operand (t :: ts) = readFrom f outer (.comparator column) ts := by
  rw [readFrom]
  cases hl : t.lexeme <;> rw [hl] at h <;> cases h <;> rfl

theorem readFrom_comparator {column : Text} {op : Comparator} (h : t.lexeme.comparator? = some op) :
    readFrom f outer (.comparator column) (t :: ts) = readFrom f outer (.literal column op) ts := by
  rw [readFrom]
  cases hl : t.lexeme with
  | keyword k =>
    cases k <;> rw [hl] at h <;> cases h
    rfl
  | operator o => cases o <;> rw [hl] at h <;> cases h <;> rfl
  | _ => rw [hl] at h; cases h

theorem readFrom_literal {column : Text} {op : Comparator} {v : Value}
    (h : t.lexeme.literal? = some v) :
    readFrom f outer (.literal column op) (t :: ts) =
      readFrom f outer (.connective (.compare column op v)) ts := by
  rw [readFrom, h]

theorem Comparison.readFrom_eq (c : Comparison) {ts : List Token}
    (h : ts.map Token.lexeme = [c.column, c.sign, c.literal]) :
    readFrom f outer .operand (ts ++ rest) = readFrom f outer (.connective c.tree) rest := by
  obtain ⟨x, ts, rfl, hx, h⟩ := List.map_eq_cons_iff.1 h
  obtain ⟨y, ts, rfl, hy, h⟩ := List.map_eq_cons_iff.1 h
  obtain ⟨z, ts, rfl, hz, h⟩ := List.map_eq_cons_iff.1 h
  cases List.map_eq_nil_iff.1 h
  have hcolumn : x.lexeme.column? = some (c.column.column?.get c.names) := by simp [hx]
  have hsign : y.lexeme.comparator? = some (c.sign.comparator?.get c.compares) := by simp [hy]
  have hliteral : z.lexeme.literal? = some (c.literal.literal?.get c.stands) := by simp [hz]
  simp only [List.cons_append, List.nil_append]
  rw [readFrom_column hcolumn, readFrom_comparator hsign, readFrom_literal hliteral]
  rfl

mutual

theorem Disjunction.readFrom_eq (d : Disjunction) (f : Frame) (outer : List Frame)
    {ts : List Token} (h : ts.map Token.lexeme = d.yield) (rest : List Token) :
    readFrom f outer .operand (ts ++ rest) =
      readFrom (d.walk f).1 outer (.connective (d.walk f).2) rest := by
  match d with
  | .one c => exact c.readFrom_eq f outer h rest
  | .or c d =>
    obtain ⟨us, vs, rfl, hus, hvs⟩ := List.map_eq_append_iff.1 h
    obtain ⟨t, vs, rfl, ht, hvs⟩ := List.map_eq_cons_iff.1 hvs
    rw [List.append_assoc, c.readFrom_eq f outer hus, List.cons_append, readFrom_or ht]
    exact d.readFrom_eq _ outer hvs rest

theorem Conjunction.readFrom_eq (c : Conjunction) (f : Frame) (outer : List Frame)
    {ts : List Token} (h : ts.map Token.lexeme = c.yield) (rest : List Token) :
    readFrom f outer .operand (ts ++ rest) =
      readFrom (c.walk f).1 outer (.connective (c.walk f).2) rest := by
  match c with
  | .one p => exact p.readFrom_eq f outer h rest
  | .and p c =>
    obtain ⟨us, vs, rfl, hus, hvs⟩ := List.map_eq_append_iff.1 h
    obtain ⟨t, vs, rfl, ht, hvs⟩ := List.map_eq_cons_iff.1 hvs
    rw [List.append_assoc, p.readFrom_eq f outer hus, List.cons_append, readFrom_and ht]
    exact c.readFrom_eq _ outer hvs rest

theorem Primary.readFrom_eq (p : Primary) (f : Frame) (outer : List Frame)
    {ts : List Token} (h : ts.map Token.lexeme = p.yield) (rest : List Token) :
    readFrom f outer .operand (ts ++ rest) = readFrom f outer (.connective p.tree) rest := by
  match p with
  | .comparison c => exact c.readFrom_eq h
  | .group d =>
    obtain ⟨t, vs, rfl, ht, hvs⟩ := List.map_eq_cons_iff.1 h
    obtain ⟨us, vs, rfl, hus, hvs⟩ := List.map_eq_append_iff.1 hvs
    obtain ⟨u, vs, rfl, hu, hvs⟩ := List.map_eq_cons_iff.1 hvs
    cases List.map_eq_nil_iff.1 hvs
    rw [List.cons_append, readFrom_opening ht, List.append_assoc, d.readFrom_eq _ _ hus,
      List.cons_append, readFrom_closing hu, d.close_walk_empty]
    rfl

end

/-! ## What is read has a derivation -/

/-- The tokens go on with no connective. -/
def Stops (ts : List Token) : Prop :=
  ∀ t ∈ ts.head?, t.lexeme ≠ .keyword .AND ∧ t.lexeme ≠ .keyword .OR

variable {r : Condition × List Token}

theorem stops_nil : Stops [] := fun _ h => nomatch h

theorem stops_cons : Stops (t :: ts) ↔ t.lexeme ≠ .keyword .AND ∧ t.lexeme ≠ .keyword .OR := by
  simp [Stops]

/-- At the outermost level, reading ends where no connective follows. -/
theorem readFrom_stop (h : Stops ts) :
    readFrom f [] (.connective last) ts = .ok (f.close last, ts) := by
  cases ts with
  | nil => rw [readFrom]
  | cons t ts =>
    obtain ⟨hand, hor⟩ := stops_cons.1 h
    cases hl : t.lexeme with
    | keyword k =>
      cases k <;> first
        | exact absurd hl hand
        | exact absurd hl hor
        | simp only [readFrom, hl]
    | mark m => cases m <;> simp only [readFrom, hl]
    | _ => simp only [readFrom, hl]

/-- Inside a group, what follows an operand without a connective closes the group. -/
theorem exists_closing {g : Frame} (hs : Stops ts)
    (h : readFrom f (g :: outer) (.connective last) ts = .ok r) :
    ∃ t us, ts = t :: us ∧ t.lexeme = .mark .closing ∧
      readFrom g outer (.connective (f.close last)) us = .ok r := by
  cases ts with
  | nil => rw [readFrom] at h; cases h
  | cons t us =>
    obtain ⟨hand, hor⟩ := stops_cons.1 hs
    cases hl : t.lexeme with
    | keyword k =>
      cases k <;> first
        | exact absurd hl hand
        | exact absurd hl hor
        | (simp only [readFrom, hl] at h; cases h)
    | mark m =>
      cases m with
      | closing => exact ⟨t, us, rfl, hl, readFrom_closing hl ▸ h⟩
      | _ => simp only [readFrom, hl] at h; cases h
    | _ => simp only [readFrom, hl] at h; cases h

theorem exists_column (h : readFrom f outer .operand ts = .ok r)
    (hg : ∀ t us, ts = t :: us → t.lexeme ≠ .mark .opening) :
    ∃ t us column, ts = t :: us ∧ t.lexeme.column? = some column ∧
      readFrom f outer (.comparator column) us = .ok r := by
  cases ts with
  | nil => rw [readFrom] at h; cases h
  | cons t us =>
    have hne := hg t us rfl
    cases hl : t.lexeme with
    | identifier name => exact ⟨t, us, name, rfl, by rw [hl]; rfl, by rwa [readFrom, hl] at h⟩
    | number name => exact ⟨t, us, name, rfl, by rw [hl]; rfl, by rwa [readFrom, hl] at h⟩
    | mark m =>
      cases m with
      | opening => exact absurd hl hne
      | _ => rw [readFrom, hl] at h; cases h
    | _ => rw [readFrom, hl] at h; cases h

theorem exists_comparator {column : Text} (h : readFrom f outer (.comparator column) ts = .ok r) :
    ∃ t us op, ts = t :: us ∧ t.lexeme.comparator? = some op ∧
      readFrom f outer (.literal column op) us = .ok r := by
  cases ts with
  | nil => rw [readFrom] at h; cases h
  | cons t us =>
    cases ho : t.lexeme.comparator? with
    | some op => exact ⟨t, us, op, rfl, ho, readFrom_comparator ho ▸ h⟩
    | none =>
      rw [readFrom] at h
      cases hl : t.lexeme with
      | keyword k => cases k <;> rw [hl] at h ho <;> cases ho <;> cases h
      | operator o =>
        cases o <;> rw [hl] at h ho <;> cases ho
        cases h
      | _ => rw [hl] at h; cases h

theorem exists_literal {column : Text} {op : Comparator}
    (h : readFrom f outer (.literal column op) ts = .ok r) :
    ∃ t us v, ts = t :: us ∧ t.lexeme.literal? = some v ∧
      readFrom f outer (.connective (.compare column op v)) us = .ok r := by
  cases ts with
  | nil => rw [readFrom] at h; cases h
  | cons t us =>
    cases hv : t.lexeme.literal? with
    | some v => exact ⟨t, us, v, rfl, hv, readFrom_literal hv ▸ h⟩
    | none => rw [readFrom, hv] at h; cases h

/-- The tokens begin with a disjunction, after which no connective follows, if reading them from an
operand on comes to an end. -/
def BeginsWell (ts : List Token) : Prop :=
  ∀ f outer r, readFrom f outer .operand ts = .ok r → ∃ (d : Disjunction) (us vs : List Token),
    ts = us ++ vs ∧ d.Derives us ∧ Stops vs ∧
      readFrom (d.walk f).1 outer (.connective (d.walk f).2) vs = .ok r

theorem exists_primary (ih : ∀ us, us.length < ts.length → BeginsWell us)
    (h : readFrom f outer .operand ts = .ok r) :
    ∃ (p : Primary) (us vs : List Token), ts = us ++ vs ∧ us.map Token.lexeme = p.yield ∧
      readFrom f outer (.connective p.tree) vs = .ok r := by
  by_cases hg : ∃ t us, ts = t :: us ∧ t.lexeme = .mark .opening
  · obtain ⟨t, ts, rfl, ht⟩ := hg
    rw [readFrom_opening ht] at h
    obtain ⟨d, us, vs, rfl, hd, hs, h⟩ := ih ts (by simp) _ _ _ h
    obtain ⟨u, vs, rfl, hu, h⟩ := exists_closing hs h
    rw [d.close_walk_empty] at h
    refine ⟨.group d, t :: (us ++ [u]), vs, by simp, ?_, h⟩
    simp [Primary.yield, ht, hu, hd.symm]
  · obtain ⟨x, ts, column, rfl, hx, h⟩ := exists_column h fun t us ht hl => hg ⟨t, us, ht, hl⟩
    obtain ⟨y, ts, op, rfl, hy, h⟩ := exists_comparator h
    obtain ⟨z, vs, v, rfl, hz, h⟩ := exists_literal h
    let c : Comparison := ⟨x.lexeme, y.lexeme, z.lexeme, by simp [hx], by simp [hy], by simp [hz]⟩
    have hc : c.tree = .compare column op v := by simp [c, Comparison.tree, hx, hy, hz]
    exact ⟨.comparison c, [x, y, z], vs, rfl, rfl, by rw [Primary.tree, hc]; exact h⟩

/-- One more operand of AND at the front. -/
def Disjunction.conjoin (p : Primary) : Disjunction → Disjunction
  | .one c => .one (.and p c)
  | .or c rest => .or (.and p c) rest

theorem Disjunction.yield_conjoin (p : Primary) (d : Disjunction) :
    (d.conjoin p).yield = p.yield ++ .keyword .AND :: d.yield := by
  cases d <;> simp [conjoin, yield, Conjunction.yield]

theorem Disjunction.walk_conjoin (p : Primary) (d : Disjunction) (f : Frame) :
    (d.conjoin p).walk f = d.walk (f.conjoin p.tree) := by
  cases d <;> rfl

theorem beginsWell (ts : List Token) : BeginsWell ts := by
  -- On the number of tokens: after a primary and a connective fewer are left, and so there are in
  -- a group.
  induction hn : ts.length using Nat.strongRecOn generalizing ts with
  | ind n ih =>
    subst hn
    intro f outer r h
    obtain ⟨p, us, vs, rfl, hp, h⟩ := exists_primary (fun us hu => ih _ hu us rfl) h
    cases vs with
    | nil => exact ⟨.one (.one p), us, [], rfl, hp, stops_nil, h⟩
    | cons t vs =>
      have hlt : vs.length < (us ++ t :: vs).length := by simp; omega
      by_cases hand : t.lexeme = .keyword .AND
      · rw [readFrom_and hand] at h
        obtain ⟨d, ws, vs, rfl, hd, hs, h⟩ := ih _ hlt vs rfl _ _ _ h
        refine ⟨d.conjoin p, us ++ t :: ws, vs, by simp, ?_, hs, by rwa [d.walk_conjoin]⟩
        simp [Disjunction.Derives, d.yield_conjoin, hp, hand, hd.symm]
      · by_cases hor : t.lexeme = .keyword .OR
        · rw [readFrom_or hor] at h
          obtain ⟨d, ws, vs, rfl, hd, hs, h⟩ := ih _ hlt vs rfl _ _ _ h
          refine ⟨.or (.one p) d, us ++ t :: ws, vs, by simp, ?_, hs, h⟩
          simp [Disjunction.Derives, Disjunction.yield, Conjunction.yield, hp, hor, hd.symm]
        · exact ⟨.one (.one p), us, t :: vs, rfl, hp, stops_cons.2 ⟨hand, hor⟩, h⟩

/-- A condition is read off tokens exactly if they begin with a derivation of it and do not go on
with a connective. -/
theorem read_eq_ok_iff {ts rest : List Token} :
    read ts = .ok (c, rest) ↔ ∃ (d : Disjunction) (us : List Token),
      ts = us ++ rest ∧ d.Derives us ∧ Stops rest ∧ d.tree = c := by
  constructor
  · intro h
    obtain ⟨d, us, vs, rfl, hd, hs, h⟩ := beginsWell ts _ _ _ h
    rw [readFrom_stop hs, d.close_walk_empty] at h
    cases h
    exact ⟨d, us, rfl, hd, hs, rfl⟩
  · rintro ⟨d, us, rfl, hd, hs, rfl⟩
    rw [read, d.readFrom_eq _ _ hd, readFrom_stop hs, d.close_walk_empty]

end Reading

/-! ## No lexemes have two derivations -/

section Unique

/-- The lexemes go on with no AND. -/
def NoAnd (ls : List Lexeme) : Prop := ls.head? ≠ some (.keyword .AND)

/-- The lexemes go on with no OR. -/
def NoOr (ls : List Lexeme) : Prop := ls.head? ≠ some (.keyword .OR)

mutual

theorem Disjunction.eq_of_yield_append (d e : Disjunction) {r s : List Lexeme}
    (h : d.yield ++ r = e.yield ++ s) (hr : NoAnd r ∧ NoOr r) (hs : NoAnd s ∧ NoOr s) :
    d = e ∧ r = s := by
  match d, e with
  | .one c, .one c' =>
    obtain ⟨rfl, rfl⟩ := c.eq_of_yield_append c' h hr.1 hs.1
    exact ⟨rfl, rfl⟩
  | .one c, .or c' rest =>
    rw [Disjunction.yield, Disjunction.yield, List.append_assoc] at h
    obtain ⟨-, rfl⟩ := c.eq_of_yield_append c' h hr.1 nofun
    exact absurd rfl hr.2
  | .or c rest, .one c' =>
    rw [Disjunction.yield, Disjunction.yield, List.append_assoc] at h
    obtain ⟨-, rfl⟩ := c.eq_of_yield_append c' h nofun hs.1
    exact absurd rfl hs.2
  | .or c rest, .or c' rest' =>
    rw [Disjunction.yield, Disjunction.yield, List.append_assoc, List.append_assoc] at h
    obtain ⟨rfl, hrest⟩ := c.eq_of_yield_append c' h nofun nofun
    obtain ⟨rfl, rfl⟩ := rest.eq_of_yield_append rest' (List.cons.inj hrest).2 hr hs
    exact ⟨rfl, rfl⟩

theorem Conjunction.eq_of_yield_append (c e : Conjunction) {r s : List Lexeme}
    (h : c.yield ++ r = e.yield ++ s) (hr : NoAnd r) (hs : NoAnd s) : c = e ∧ r = s := by
  match c, e with
  | .one p, .one p' =>
    obtain ⟨rfl, rfl⟩ := p.eq_of_yield_append p' h
    exact ⟨rfl, rfl⟩
  | .one p, .and p' rest =>
    rw [Conjunction.yield, Conjunction.yield, List.append_assoc] at h
    obtain ⟨-, rfl⟩ := p.eq_of_yield_append p' h
    exact absurd rfl hr
  | .and p rest, .one p' =>
    rw [Conjunction.yield, Conjunction.yield, List.append_assoc] at h
    obtain ⟨-, rfl⟩ := p.eq_of_yield_append p' h
    exact absurd rfl hs
  | .and p rest, .and p' rest' =>
    rw [Conjunction.yield, Conjunction.yield, List.append_assoc, List.append_assoc] at h
    obtain ⟨rfl, hrest⟩ := p.eq_of_yield_append p' h
    obtain ⟨rfl, rfl⟩ := rest.eq_of_yield_append rest' (List.cons.inj hrest).2 hr hs
    exact ⟨rfl, rfl⟩

theorem Primary.eq_of_yield_append (p q : Primary) {r s : List Lexeme}
    (h : p.yield ++ r = q.yield ++ s) : p = q ∧ r = s := by
  -- A comparison begins with a column and a group with a parenthesis.
  have hcolumn : ∀ c : Comparison, c.column ≠ .mark .opening := fun c hc => by
    have := c.names
    rw [hc] at this
    cases this
  match p, q with
  | .comparison ⟨_, _, _, _, _, _⟩, .comparison ⟨_, _, _, _, _, _⟩ =>
    simp only [Primary.yield, List.cons_append, List.nil_append, List.cons.injEq] at h
    obtain ⟨rfl, rfl, rfl, rfl⟩ := h
    exact ⟨rfl, rfl⟩
  | .comparison c, .group e => exact absurd (List.cons.inj h).1 (hcolumn c)
  | .group d, .comparison c => exact absurd (List.cons.inj h).1.symm (hcolumn c)
  | .group d, .group e =>
    simp only [Primary.yield, List.cons_append, List.append_assoc, List.cons.injEq, true_and] at h
    obtain ⟨rfl, hclosing⟩ := d.eq_of_yield_append e h ⟨nofun, nofun⟩ ⟨nofun, nofun⟩
    exact ⟨rfl, (List.cons.inj hclosing).2⟩

end

theorem Disjunction.eq_of_yield {d e : Disjunction} (h : d.yield = e.yield) : d = e :=
  (d.eq_of_yield_append e (r := []) (s := []) (by simpa using h) ⟨nofun, nofun⟩ ⟨nofun, nofun⟩).1

end Unique

/-! ## Texts -/

/-- What comes of a text whose tokens have been made out. -/
theorem ofText_of_scan {t : Text} {ts : List Token} (h : Token.scan t = .ok ts) :
    ofText t = match read ts with
      | .ok (c, []) => .ok c
      | .ok (_, x :: _) => .error (.condition (.trailing x.text))
      | .error fault => .error (.condition fault) := by
  rw [ofText, h]
  change (read ts).mapError Rejection.condition >>= _ = _
  cases read ts with
  | error fault => rfl
  | ok r =>
    obtain ⟨c, rest⟩ := r
    cases rest <;> rfl

theorem ofText_of_scan_error {t : Text} {fault : CommandFault} (h : Token.scan t = .error fault) :
    ofText t = .error (.command fault) := by
  rw [ofText, h]
  rfl

theorem ofText_eq_ok_iff {t : Text} {c : Condition} :
    ofText t = .ok c ↔ ∃ ts, Token.scan t = .ok ts ∧ read ts = .ok (c, []) := by
  cases hts : Token.scan t with
  | error fault => simp [ofText_of_scan_error hts]
  | ok ts =>
    rw [ofText_of_scan hts]
    split <;> simp_all

/-- A text is a condition exactly if its tokens have a derivation, which is the only one and whose
tree is the condition. Any other text is turned down for the form of its tokens or of the
condition. -/
theorem ofText_eq_ok_iff_derives (t : Text) :
    (∀ c, ofText t = .ok c ↔ ∃ ts d, Token.scan t = .ok ts ∧ Disjunction.Derives d ts ∧
      (∀ e : Disjunction, e.Derives ts → e = d) ∧ d.tree = c) ∧
    ∀ cause, ofText t = .error cause →
      (∃ fault, cause = .command fault) ∨ ∃ fault, cause = .condition fault := by
  refine ⟨fun c => ?_, fun cause h => ?_⟩
  · rw [ofText_eq_ok_iff]
    constructor
    · rintro ⟨ts, hts, h⟩
      obtain ⟨d, us, rfl, hd, -, rfl⟩ := read_eq_ok_iff.1 h
      rw [List.append_nil] at hts
      exact ⟨us, d, hts, hd, fun e he => Disjunction.eq_of_yield (he.symm.trans hd), rfl⟩
    · rintro ⟨ts, d, hts, hd, -, rfl⟩
      exact ⟨ts, hts, read_eq_ok_iff.2 ⟨d, ts, by simp, hd, stops_nil, rfl⟩⟩
  · cases hts : Token.scan t with
    | error fault =>
      cases (ofText_of_scan_error hts).symm.trans h
      exact .inl ⟨fault, rfl⟩
    | ok ts =>
      rw [ofText_of_scan hts] at h
      split at h <;> cases h <;> exact .inr ⟨_, rfl⟩

end Condition

end Tabular
