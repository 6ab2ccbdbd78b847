import Mathlib
import Tabular.Proofs.Statement.Grammar
import Tabular.Proofs.Token.Quoted

/-!
# Literals as data

A gap is a statement in which one value is left out. Where a string stands in a statement, any other
string may stand, and all that comes of it is another value in the gap.
-/

namespace Tabular

namespace Condition

/-- A condition without one of its literals. -/
inductive Gap where
  | compare (column : Text) (op : Comparator)
  | group (op : Connective) (before : List Condition) (inner : Gap) (after : List Condition)

/-- The condition with the value for the literal. -/
def Gap.fill : Gap → Value → Condition
  | compare column op, v => .compare column op v
  | group op before inner after, v => .group op (before ++ inner.fill v :: after)

end Condition

namespace Statement

/-- A statement without one of its values. -/
inductive Gap where
  | insert (table : Text) (before after : List Value)
  | select (table : Text) (columns : Option (List Text)) (condition : Condition.Gap)
  | assign (table : Text) (before : List (Text × Value)) (column : Text)
    (after : List (Text × Value)) (condition : Option Condition)
  | update (table : Text) (assignments : List (Text × Value)) (condition : Condition.Gap)
  | delete (table : Text) (condition : Condition.Gap)

/-- The statement with the value in the gap. -/
def Gap.fill : Gap → Value → Statement
  | insert t before after, v => .insert t (before ++ v :: after)
  | select t columns condition, v => .select t columns (some (condition.fill v))
  | assign t before column after condition, v =>
    .update t (before ++ (column, v) :: after) condition
  | update t assignments condition, v => .update t assignments (some (condition.fill v))
  | delete t condition, v => .delete t (some (condition.fill v))

end Statement

/-! ## A string among lexemes -/

section Among

variable {us vs ks ls : List Lexeme} {s : Text}

/-- A string in two lists of lexemes is in one of them. -/
theorem string_in_append (h : ks ++ ls = us ++ .string s :: vs) :
    (∃ ws, ks = us ++ .string s :: ws ∧ vs = ws ++ ls) ∨
      ∃ ws, us = ks ++ ws ∧ ls = ws ++ .string s :: vs := by
  induction ks generalizing us with
  | nil => exact .inr ⟨us, rfl, h⟩
  | cons k ks ih =>
    cases us with
    | nil =>
      obtain ⟨rfl, rfl⟩ := List.cons.inj h
      exact .inl ⟨ks, rfl, rfl⟩
    | cons u us =>
      obtain ⟨rfl, hrest⟩ := List.cons.inj h
      obtain ⟨ws, rfl, rfl⟩ | ⟨ws, rfl, rfl⟩ := ih hrest
      · exact .inl ⟨ws, rfl, rfl⟩
      · exact .inr ⟨ws, rfl, rfl⟩

theorem string_behind (ks : List Lexeme) (h : ks ++ ls = us ++ .string s :: vs)
    (hks : .string s ∉ ks) : ∃ ws, us = ks ++ ws ∧ ls = ws ++ .string s :: vs := by
  obtain ⟨ws, rfl, -⟩ | hbehind := string_in_append h
  · simp at hks
  · exact hbehind

theorem eq_string {l : Lexeme} (h : [l] = us ++ .string s :: vs) :
    us = [] ∧ l = .string s ∧ vs = [] := by
  cases us <;> simp_all

end Among

theorem Lexeme.literal?_string (s : Text) : (Lexeme.string s).literal? = some (.string s) := by
  simp [literal?, text, Value.ofLiteral, Value.unquote?]

/-! ## Conditions -/

namespace Condition

/-- A group with a gap in one operand is a condition with a gap. -/
theorem exists_gap_grouped (op : Connective) (before after : List Condition) (g : Gap) :
    ∃ g' : Gap, ∀ v, grouped op (before ++ g.fill v :: after) = g'.fill v := by
  cases before with
  | nil =>
    cases after with
    | nil => exact ⟨g, fun v => rfl⟩
    | cons c after => exact ⟨.group op [] g (c :: after), fun v => rfl⟩
  | cons b before =>
    refine ⟨.group op (b :: before) g after, fun v => ?_⟩
    cases before <;> rfl

mutual

theorem Disjunction.exists_gap (d : Disjunction) {us vs : List Lexeme} {s : Text}
    (h : d.yield = us ++ .string s :: vs) : ∃ before g after, ∀ r, ∃ e : Disjunction,
      e.yield = us ++ .string r :: vs ∧ e.operands = before ++ Gap.fill g (.string r) :: after := by
  match d with
  | .one c =>
    obtain ⟨g, hg⟩ := c.exists_gap h
    refine ⟨[], g, [], fun r => ?_⟩
    obtain ⟨e, he, ht⟩ := hg r
    exact ⟨.one e, he, congrArg ([·]) ht⟩
  | .or c rest =>
    obtain ⟨ws, hc, rfl⟩ | ⟨ws, rfl, hrest⟩ := string_in_append h
    · obtain ⟨g, hg⟩ := c.exists_gap hc
      refine ⟨[], g, rest.operands, fun r => ?_⟩
      obtain ⟨e, he, ht⟩ := hg r
      exact ⟨.or e rest, by simp [Disjunction.yield, he], congrArg (· :: rest.operands) ht⟩
    · obtain ⟨ws, rfl, hrest'⟩ := string_behind [_] hrest (by simp)
      obtain ⟨before, g, after, hg⟩ := rest.exists_gap hrest'
      refine ⟨c.tree :: before, g, after, fun r => ?_⟩
      obtain ⟨e, he, ht⟩ := hg r
      exact ⟨.or c e, by simp [Disjunction.yield, he], congrArg (c.tree :: ·) ht⟩

theorem Conjunction.exists_gap (c : Conjunction) {us vs : List Lexeme} {s : Text}
    (h : c.yield = us ++ .string s :: vs) : ∃ g : Gap, ∀ r, ∃ e : Conjunction,
      e.yield = us ++ .string r :: vs ∧ e.tree = g.fill (.string r) := by
  obtain ⟨before, g, after, hg⟩ := c.exists_gap_operands h
  obtain ⟨g', hg'⟩ := exists_gap_grouped .and before after g
  refine ⟨g', fun r => ?_⟩
  obtain ⟨e, he, ht⟩ := hg r
  exact ⟨e, he, by rw [e.tree_eq, ht, hg']⟩

theorem Conjunction.exists_gap_operands (c : Conjunction) {us vs : List Lexeme} {s : Text}
    (h : c.yield = us ++ .string s :: vs) : ∃ before g after, ∀ r, ∃ e : Conjunction,
      e.yield = us ++ .string r :: vs ∧ e.operands = before ++ Gap.fill g (.string r) :: after := by
  match c with
  | .one p =>
    obtain ⟨g, hg⟩ := p.exists_gap h
    refine ⟨[], g, [], fun r => ?_⟩
    obtain ⟨e, he, ht⟩ := hg r
    exact ⟨.one e, he, congrArg ([·]) ht⟩
  | .and p rest =>
    obtain ⟨ws, hp, rfl⟩ | ⟨ws, rfl, hrest⟩ := string_in_append h
    · obtain ⟨g, hg⟩ := p.exists_gap hp
      refine ⟨[], g, rest.operands, fun r => ?_⟩
      obtain ⟨e, he, ht⟩ := hg r
      exact ⟨.and e rest, by simp [Conjunction.yield, he], congrArg (· :: rest.operands) ht⟩
    · obtain ⟨ws, rfl, hrest'⟩ := string_behind [_] hrest (by simp)
      obtain ⟨before, g, after, hg⟩ := rest.exists_gap_operands hrest'
      refine ⟨p.tree :: before, g, after, fun r => ?_⟩
      obtain ⟨e, he, ht⟩ := hg r
      exact ⟨.and p e, by simp [Conjunction.yield, he], congrArg (p.tree :: ·) ht⟩

theorem Primary.exists_gap (p : Primary) {us vs : List Lexeme} {s : Text}
    (h : p.yield = us ++ .string s :: vs) : ∃ g : Gap, ∀ r, ∃ e : Primary,
      e.yield = us ++ .string r :: vs ∧ e.tree = g.fill (.string r) := by
  match p with
  | .comparison ⟨column, sign, literal, names, compares, stands⟩ =>
    -- Only the literal can be a string.
    have hcolumn : column ≠ .string s := by rintro rfl; cases names
    have hsign : sign ≠ .string s := by rintro rfl; cases compares
    obtain ⟨ws, rfl, hws⟩ := string_behind [column, sign] h
      (by simp [hcolumn.symm, hsign.symm])
    obtain ⟨rfl, rfl, rfl⟩ := eq_string hws
    refine ⟨.compare (column.column?.get names) (sign.comparator?.get compares), fun r => ?_⟩
    have hr := Lexeme.literal?_string r
    refine ⟨.comparison ⟨column, sign, .string r, names, compares, by simp [hr]⟩, rfl, ?_⟩
    simp [Primary.tree, Comparison.tree, Gap.fill, hr]
  | .group d =>
    obtain ⟨ws, rfl, hd⟩ := string_behind [_] h (by simp)
    obtain ⟨ws', hinner, rfl⟩ | ⟨ws', -, hclosing⟩ := string_in_append hd
    · obtain ⟨before, g, after, hg⟩ := d.exists_gap hinner
      obtain ⟨g', hg'⟩ := exists_gap_grouped .or before after g
      refine ⟨g', fun r => ?_⟩
      obtain ⟨e, he, ht⟩ := hg r
      exact ⟨.group e, by simp [Primary.yield, he], by rw [Primary.tree, e.tree_eq, ht, hg']⟩
    · cases (eq_string hclosing).2.1

end

end Condition

/-! ## Statements -/

namespace Statement

section Gaps

variable {α γ : Type} {item : List Lexeme → α → Prop} {fill : γ → Value → α} {l : Lexeme} {s : Text}

/-- Wherever lexemes that are related to something have a string, any other string may stand, and
what they are then related to has the other value in a gap. -/
def HasGaps (R : List Lexeme → α → Prop) (fill : γ → Value → α) : Prop :=
  ∀ {us vs s a}, R (us ++ .string s :: vs) a →
    ∃ g, ∀ r, R (us ++ .string r :: vs) (fill g (.string r))

theorem Series.hasGaps (h : HasGaps item fill) :
    HasGaps (Series item) fun (g : List α × γ × List α) v => g.1 ++ fill g.2.1 v :: g.2.2 := by
  intro us vs s as hs
  generalize hls : us ++ .string s :: vs = ls at hs
  induction hs generalizing us vs with
  | @one ls a first =>
    subst hls
    obtain ⟨g, hg⟩ := h first
    exact ⟨([], g, []), fun r => .one (hg r)⟩
  | @more ls ms a as first rest ih =>
    obtain ⟨ws, rfl, rfl⟩ | ⟨ws, rfl, hrest⟩ := string_in_append hls.symm
    · obtain ⟨g, hg⟩ := h first
      refine ⟨([], g, as), fun r => ?_⟩
      simpa using Series.more (hg r) rest
    · obtain ⟨ws, rfl, rfl⟩ := string_behind [_] hrest (by simp)
      obtain ⟨g, hg⟩ := ih rfl
      refine ⟨(a :: g.1, g.2), fun r => ?_⟩
      simpa using Series.more first (hg r)

theorem isLiteral_hasGaps : HasGaps IsLiteral fun (_ : Unit) v => v := by
  rintro us vs s v ⟨l, hl, -⟩
  obtain ⟨rfl, -, rfl⟩ := eq_string hl.symm
  exact ⟨(), fun r => ⟨_, rfl, Lexeme.literal?_string r⟩⟩

theorem string_ne_of_name? {n : Text} (h : l.name? = some n) : .string s ≠ l := by
  rintro rfl
  cases h

theorem assigns_hasGaps : HasGaps Assigns Prod.mk := by
  rintro us vs s ⟨column, v⟩ ⟨l, m, hls, hl, -⟩
  obtain ⟨ws, rfl, hm⟩ := string_behind [l, _] hls.symm (by simp [string_ne_of_name? hl])
  obtain ⟨rfl, -, rfl⟩ := eq_string hm
  exact ⟨column, fun r => ⟨l, _, rfl, hl, Lexeme.literal?_string r⟩⟩

theorem newValues_hasGaps :
    HasGaps NewValues fun (g : List Value × Unit × List Value) v => g.1 ++ v :: g.2.2 := by
  intro us vs s values h
  generalize hls : us ++ .string s :: vs = ls at h
  cases h with
  | empty =>
    have hmem : Lexeme.string s ∈ us ++ .string s :: vs := by simp
    rw [hls] at hmem
    simp at hmem
  | listed series =>
    obtain ⟨ws, rfl, hrest⟩ := string_behind [_] hls.symm (by simp)
    obtain ⟨ws', rfl, rfl⟩ | ⟨ws', -, hclosing⟩ := string_in_append hrest
    · obtain ⟨g, hg⟩ := Series.hasGaps @isLiteral_hasGaps series
      refine ⟨g, fun r => ?_⟩
      simpa using NewValues.listed (hg r)
    · cases (eq_string hclosing).2.1

theorem where_hasGaps : HasGaps Where fun (g : Condition.Gap) v => some (g.fill v) := by
  intro us vs s condition h
  generalize hls : us ++ .string s :: vs = ls at h
  cases h with
  | left => simp at hls
  | given d =>
    obtain ⟨ws, rfl, hd⟩ := string_behind [_] hls.symm (by simp)
    obtain ⟨before, g, after, hg⟩ := d.exists_gap hd
    obtain ⟨g', hg'⟩ := Condition.exists_gap_grouped .or before after g
    refine ⟨g', fun r => ?_⟩
    obtain ⟨e, he, ht⟩ := hg r
    have htree : e.tree = g'.fill (.string r) := by rw [e.tree_eq, ht, hg']
    dsimp only
    rw [List.append_assoc, ← he, ← htree]
    exact .given e

/-! ## Parts without values -/

theorem IsColumn.string_not_mem {ls : List Lexeme} {n : Text} (h : IsColumn ls n) :
    .string s ∉ ls := by
  obtain ⟨l, rfl, hl⟩ := h
  simpa using string_ne_of_name? hl

theorem Series.string_not_mem (h : ∀ {ls a}, item ls a → .string s ∉ ls) {ls : List Lexeme}
    {as : List α} (hs : Series item ls as) : .string s ∉ ls := by
  induction hs with
  | one first => exact h first
  | more first rest ih => simp [h first, ih]

theorem NewColumns.string_not_mem {ls : List Lexeme} {columns : List Text}
    (h : NewColumns ls columns) : .string s ∉ ls := by
  cases h with
  | left => simp
  | listed series => simpa using series.string_not_mem IsColumn.string_not_mem

theorem WantedColumns.string_not_mem {ls : List Lexeme} {columns : Option (List Text)}
    (h : WantedColumns ls columns) : .string s ∉ ls := by
  cases h with
  | star => simp
  | listed series => exact series.string_not_mem IsColumn.string_not_mem

/-! ## Whole statements -/

theorem form_hasGaps : HasGaps Form Gap.fill := by
  intro us vs s st h
  generalize hls : us ++ .string s :: vs = ls at h
  have hmem : .string s ∈ ls := by simp [← hls]
  cases h with
  | use database => simp [string_ne_of_name? database] at hmem
  | createDatabase database => simp [string_ne_of_name? database] at hmem
  | dropDatabase database => simp [string_ne_of_name? database] at hmem
  | createTable table made => simp [string_ne_of_name? table, made.string_not_mem] at hmem
  | dropTable table => simp [string_ne_of_name? table] at hmem
  | alterTable table word changed =>
    obtain rfl | rfl := word <;>
      simp [string_ne_of_name? table, string_ne_of_name? changed] at hmem
  | join left right leftKey rightKey =>
    simp [string_ne_of_name? left, string_ne_of_name? right, string_ne_of_name? leftKey,
      string_ne_of_name? rightKey] at hmem
  | @insert l t ls values table row =>
    obtain ⟨ws, rfl, rfl⟩ := string_behind [_, _, l, _] hls.symm
      (by simp [string_ne_of_name? table])
    obtain ⟨g, hg⟩ := newValues_hasGaps row
    refine ⟨.insert (Text.lower t) g.1 g.2.2, fun r => ?_⟩
    simpa [Gap.fill] using Form.insert table (hg r)
  | @select l t ks ls columns condition wanted table rows =>
    obtain ⟨ws, rfl, rfl⟩ := string_behind (.keyword .SELECT :: (ks ++ [.keyword .FROM, l]))
      (by simpa using hls.symm) (by simp [wanted.string_not_mem, string_ne_of_name? table])
    obtain ⟨g, hg⟩ := where_hasGaps rows
    refine ⟨.select (Text.lower t) columns g, fun r => ?_⟩
    simpa [Gap.fill] using Form.select wanted table (hg r)
  | @update l t ks ls assignments condition table changes rows =>
    obtain ⟨ws, rfl, hrest⟩ := string_behind [_, l, _] hls.symm
      (by simp [string_ne_of_name? table])
    obtain ⟨ws', rfl, rfl⟩ | ⟨ws', rfl, rfl⟩ := string_in_append hrest
    · obtain ⟨g, hg⟩ := Series.hasGaps @assigns_hasGaps changes
      refine ⟨.assign (Text.lower t) g.1 g.2.1 g.2.2 condition, fun r => ?_⟩
      simpa [Gap.fill] using Form.update table (hg r) rows
    · obtain ⟨g, hg⟩ := where_hasGaps rows
      refine ⟨.update (Text.lower t) assignments g, fun r => ?_⟩
      simpa [Gap.fill] using Form.update table changes (hg r)
  | @delete l t ls condition table rows =>
    obtain ⟨ws, rfl, rfl⟩ := string_behind [_, _, l] hls.symm
      (by simp [string_ne_of_name? table])
    obtain ⟨g, hg⟩ := where_hasGaps rows
    refine ⟨.delete (Text.lower t) g, fun r => ?_⟩
    simpa [Gap.fill] using Form.delete table (hg r)

end Gaps

/-! ## Texts -/

section Texts

variable {before after s : Text} {ks : List Lexeme}

theorem ofText_eq_ok_iff_lexemes? {t : Text} {st : Statement} :
    ofText t = .ok st ↔ ∃ ls, Token.lexemes? t = some ls ∧ Form ls st := by
  rw [ofText_eq_ok_iff]
  simp only [Token.lexemes?_eq_some_iff]
  constructor
  · rintro ⟨ts, hts, h⟩
    exact ⟨_, ⟨ts, hts, rfl⟩, h⟩
  · rintro ⟨_, ⟨ts, hts, rfl⟩, h⟩
    exact ⟨ts, hts, h⟩

/-- Quoted text between two others is data to what reads it: either all of it is turned down,
whatever is quoted, or what is read has just that string in a gap. -/
def IsData (read : Text → Except Rejection Statement) (before after : Text) : Prop :=
  (∀ s, '\'' ∉ s → ∃ cause, read (before ++ (Lexeme.string s).text ++ after) = .error cause) ∨
    ∃ gap : Gap, ∀ s, '\'' ∉ s →
      read (before ++ (Lexeme.string s).text ++ after) = .ok (gap.fill (.string s))

theorem isData_ofText (h : Token.lexemes? before = some ks) (after : Text) :
    IsData ofText before after := by
  by_cases hread : ∃ s st, '\'' ∉ s ∧ ofText (before ++ (Lexeme.string s).text ++ after) = .ok st
  · obtain ⟨s, st, hq, hread⟩ := hread
    obtain ⟨ls, hls, hform⟩ := ofText_eq_ok_iff_lexemes?.1 hread
    rw [Token.lexemes?_around hq h] at hls
    obtain ⟨vs, hvs, rfl⟩ := Option.map_eq_some_iff.1 hls
    obtain ⟨gap, hgap⟩ := form_hasGaps hform
    refine .inr ⟨gap, fun r hr => ofText_eq_ok_iff_lexemes?.2 ⟨_, ?_, hgap r⟩⟩
    rw [Token.lexemes?_around hr h, hvs]
    rfl
  · refine .inl fun s hq => ?_
    cases ho : ofText (before ++ (Lexeme.string s).text ++ after) with
    | error cause => exact ⟨cause, rfl⟩
    | ok st => exact absurd ⟨s, st, hq, ho⟩ hread

theorem lexemes?_dropWhile_isBlank (t : Text) :
    Token.lexemes? (t.dropWhile Text.isBlank) = Token.lexemes? t := by
  induction t with
  | nil => rfl
  | cons c t ih =>
    by_cases hc : Text.isBlank c
    · rw [List.dropWhile_cons_of_pos hc, ih, Token.lexemes?_blank hc]
    · rw [List.dropWhile_cons_of_neg hc]

theorem dropWhile_append_quote (t rest : Text) :
    (t ++ '\'' :: rest).dropWhile Text.isBlank = t.dropWhile Text.isBlank ++ '\'' :: rest := by
  induction t with
  | nil => exact List.dropWhile_cons_of_neg (by decide)
  | cons c t ih =>
    rw [List.cons_append, List.dropWhile_cons, List.dropWhile_cons, ih]
    split <;> rfl

/-- Trimming stops at the quotes. -/
theorem trim_quoted (before after s : Text) :
    Text.trim (before ++ (Lexeme.string s).text ++ after) =
      before.dropWhile Text.isBlank ++ (Lexeme.string s).text ++
        after.rdropWhile Text.isBlank := by
  rw [Text.trim, Text.trimBy, List.append_assoc, Token.text_string_append, dropWhile_append_quote]
  have hback : (before.dropWhile Text.isBlank ++ '\'' :: (s ++ '\'' :: after)).reverse =
      after.reverse ++ '\'' :: (before.dropWhile Text.isBlank ++ '\'' :: s).reverse := by simp
  rw [hback, dropWhile_append_quote]
  simp [Lexeme.text, List.rdropWhile]

/-- A command with quoted text is turned down for its end, or it is read from a text with the same
quoted text. -/
theorem ofCommand_quoted (before after : Text) :
    (∀ s, ∃ cause, ofCommand (before ++ (Lexeme.string s).text ++ after) = .error cause) ∨
    ∃ rest, ∀ s, ofCommand (before ++ (Lexeme.string s).text ++ after) =
      ofText (before.dropWhile Text.isBlank ++ (Lexeme.string s).text ++ rest) := by
  obtain ⟨front, hfront⟩ | hend :=
    em (∃ front, after.rdropWhile Text.isBlank = front ++ [';'])
  · refine .inr ⟨front.rdropWhile Text.isBlank, fun s => ?_⟩
    have hbody : commandBody (before ++ (Lexeme.string s).text ++ after) =
        .ok (before.dropWhile Text.isBlank ++ (Lexeme.string s).text ++
          front.rdropWhile Text.isBlank) := by
      refine commandBody_eq_ok_iff.2 ⟨by simp [Lexeme.text],
        before.dropWhile Text.isBlank ++ (Lexeme.string s).text ++ front, ?_, ?_⟩
      · rw [trim_quoted, hfront, List.append_assoc _ front]
      · rw [trim_quoted, List.dropWhile_idempotent]
    rw [ofCommand, hbody]
  · refine .inl fun s => ?_
    cases ho : ofCommand (before ++ (Lexeme.string s).text ++ after) with
    | error cause => exact ⟨cause, rfl⟩
    | ok st =>
      obtain ⟨body, hbody, -⟩ := ofCommand_eq_ok_iff.1 ho
      obtain ⟨-, front, hfront, -⟩ := commandBody_eq_ok_iff.1 hbody
      rw [trim_quoted] at hfront
      -- The semicolon at the end stands behind the quotes.
      have hlast := congrArg List.getLast? hfront
      obtain hnil | ⟨rest, c, hrest⟩ := (after.rdropWhile Text.isBlank).eq_nil_or_concat'
      · rw [hnil, Lexeme.text, List.append_nil, ← List.append_assoc, List.getLast?_concat,
          List.getLast?_concat] at hlast
        exact absurd (Option.some.inj hlast) (by decide)
      · obtain rfl : c = ';' := by simpa [hrest] using hlast
        exact absurd ⟨rest, hrest⟩ hend

/-- What stands in quotes behind text that can be cut into tokens is only data. -/
theorem quoted_isData {ts : List Token} (h : Token.scan before = .ok ts) (after : Text) :
    IsData ofText before after ∧ IsData ofCommand before after := by
  have hks : Token.lexemes? before = some (ts.map Token.lexeme) :=
    Token.lexemes?_eq_some_iff.2 ⟨ts, h, rfl⟩
  refine ⟨isData_ofText hks after, ?_⟩
  obtain hend | ⟨rest, hrest⟩ := ofCommand_quoted before after
  · exact .inl fun s _ => hend s
  · have hdata := isData_ofText ((lexemes?_dropWhile_isBlank before).trans hks) rest
    simpa only [IsData, hrest] using hdata

theorem quoted_isData_of_row :
    Token.scan "INSERT INTO t VALUES (1, ".toList = .ok [⟨.keyword .INSERT, 1⟩, ⟨.keyword .INTO, 8⟩,
      ⟨.identifier ['t'], 13⟩, ⟨.keyword .VALUES, 15⟩, ⟨.mark .opening, 22⟩, ⟨.number ['1'], 23⟩,
      ⟨.mark .comma, 24⟩] ∧
    IsData ofText "INSERT INTO t VALUES (1, ".toList ");".toList ∧
    IsData ofCommand "INSERT INTO t VALUES (1, ".toList ");".toList :=
  have h : Token.scan "INSERT INTO t VALUES (1, ".toList = .ok [⟨.keyword .INSERT, 1⟩,
      ⟨.keyword .INTO, 8⟩, ⟨.identifier ['t'], 13⟩, ⟨.keyword .VALUES, 15⟩, ⟨.mark .opening, 22⟩,
      ⟨.number ['1'], 23⟩, ⟨.mark .comma, 24⟩] := by cbv
  ⟨h, quoted_isData h ");".toList⟩

example : ofCommand "INSERT INTO t VALUES (1, 'x); DROP TABLE t;');".toList =
    .ok ((Gap.insert ['t'] [⟨.number, ['1']⟩] []).fill (.string "x); DROP TABLE t;".toList)) := by
  cbv

end Texts

end Statement

end Tabular
