import Mathlib.Data.List.Induction
import Tabular.Proofs.Condition.Grammar
import Tabular.Proofs.Condition.Grouping
import Tabular.Proofs.Token.Cut

/-!
# Redundant parentheses

Parentheses around operands that stand next to each other in a group, around one operand or around a
whole condition do not change what the condition means, nor what is wrong with it. The reader is told
by what it does with one token; from states that are alike it then comes to conditions that mean the
same, or finds the same fault.
-/

namespace Tabular

namespace Condition

/-! ## One token at a time -/

/-- What comes of one more token: the reader turns it down, ends before it, or goes on behind it. -/
inductive Turn where
  | fail (fault : ConditionFault)
  | stop (c : Condition)
  | go (f : Frame) (outer : List Frame) (next : Expecting)

/-- What comes of a token behind an operand that is no connective. -/
def leave (f : Frame) (last : Condition) (l : Lexeme) : List Frame → Turn
  | [] => .stop (f.close last)
  | g :: outer =>
    if l = .mark .closing then .go g outer (.connective (f.close last)) else .fail .unbalanced

def turn (f : Frame) (outer : List Frame) : Expecting → Lexeme → Turn
  | .operand, l =>
    match l.column? with
    | some column => .go f outer (.comparator column)
    | none =>
      if l = .mark .opening then .go .empty (f :: outer) .operand
      else .fail (if l = .mark .closing then .unbalanced else .notColumn l.text)
  | .comparator column, l =>
    match l.comparator? with
    | some op => .go f outer (.literal column op)
    | none => .fail (if l = .operator .assign then .singleEquals column else .noComparator column)
  | .literal column op, l =>
    match l.literal? with
    | some v => .go f outer (.connective (.compare column op v))
    | none => .fail (.noLiteral column op)
  | .connective last, l =>
    if l = .keyword .AND then .go (f.conjoin last) outer .operand
    else if l = .keyword .OR then .go (f.alternate last) outer .operand
    else leave f last l outer

variable {f g : Frame} {outer outer' : List Frame} {x y : Expecting} {c d last last' : Condition}
  {l : Lexeme} {ts ts' us vs ws : List Token}

theorem readFrom_cons (t : Token) (ts : List Token) :
    readFrom f outer x (t :: ts) =
      match turn f outer x t.lexeme with
      | .fail fault => .error fault
      | .stop c => .ok (c, t :: ts)
      | .go g outer next => readFrom g outer next ts := by
  cases x with
  | operand =>
    rw [readFrom]
    cases hl : t.lexeme with
    | mark m => cases m <;> simp [turn, Lexeme.column?, Token.text, hl]
    | _ => simp [turn, Lexeme.column?, Token.text, hl]
  | comparator column =>
    rw [readFrom]
    cases hl : t.lexeme with
    | keyword k => cases k <;> simp [turn, Lexeme.comparator?]
    | operator o => cases o <;> simp [turn, Lexeme.comparator?, Operator.comparator?]
    | _ => simp [turn, Lexeme.comparator?]
  | literal column op =>
    rw [readFrom]
    cases hl : t.lexeme.literal? <;> simp [turn, hl]
  | connective last =>
    cases hl : t.lexeme with
    | keyword k => cases k <;> cases outer <;> simp [readFrom, turn, leave, hl]
    | mark m => cases m <;> cases outer <;> simp [readFrom, turn, leave, hl]
    | _ => cases outer <;> simp [readFrom, turn, leave, hl]

/-! ## States that are alike -/

/-- The finished operands of two groups mean the same. -/
structure Frame.Alike (f g : Frame) : Prop where
  alternatives : (group .or f.alternatives.reverse).meaning = (group .or g.alternatives.reverse).meaning
  conjuncts : (group .and f.conjuncts.reverse).meaning = (group .and g.conjuncts.reverse).meaning

theorem Frame.Alike.refl (f : Frame) : f.Alike f := ⟨rfl, rfl⟩

theorem Frame.meaning_conjunction (f : Frame) (c : Condition) :
    (f.conjunction c).meaning = (group .and (f.conjuncts.reverse ++ [c])).meaning :=
  meaning_grouped _ _

theorem Frame.meaning_close (f : Frame) (c : Condition) :
    (f.close c).meaning = (group .or (f.alternatives.reverse ++ [f.conjunction c])).meaning :=
  meaning_grouped _ _

/-- Groups that are alike, and the same is expected; behind an operand, the conjunctions that end
with it mean the same. -/
inductive Abreast : Frame → Expecting → Frame → Expecting → Prop
  | operand {f g : Frame} (h : f.Alike g) : Abreast f .operand g .operand
  | comparator {f g : Frame} (h : f.Alike g) (column : Text) :
    Abreast f (.comparator column) g (.comparator column)
  | literal {f g : Frame} (h : f.Alike g) (column : Text) (op : Comparator) :
    Abreast f (.literal column op) g (.literal column op)
  | connective {f g : Frame} {c d : Condition}
    (ha : (group .or f.alternatives.reverse).meaning = (group .or g.alternatives.reverse).meaning)
    (hc : (f.conjunction c).meaning = (g.conjunction d).meaning) :
    Abreast f (.connective c) g (.connective d)

theorem Abreast.refl (f : Frame) (x : Expecting) : Abreast f x f x := by
  cases x with
  | operand => exact .operand (.refl f)
  | comparator column => exact .comparator (.refl f) column
  | literal column op => exact .literal (.refl f) column op
  | connective last => exact .connective rfl rfl

theorem Frame.Alike.abreast (h : f.Alike g) (hc : c.meaning = d.meaning) :
    Abreast f (.connective c) g (.connective d) := by
  refine .connective h.alternatives ?_
  rw [f.meaning_conjunction, g.meaning_conjunction]
  exact meaning_group_concat h.conjuncts hc

theorem Abreast.meaning_close (h : Abreast f (.connective c) g (.connective d)) :
    (f.close c).meaning = (g.close d).meaning := by
  obtain _ | _ | _ | ⟨ha, hc⟩ := h
  rw [f.meaning_close, g.meaning_close]
  exact meaning_group_concat ha hc

/-- Turns that come to the same. -/
inductive Turn.Alike : Turn → Turn → Prop
  | fail (fault : ConditionFault) : Alike (.fail fault) (.fail fault)
  | stop {c d : Condition} (h : c.meaning = d.meaning) : Alike (.stop c) (.stop d)
  | go {f g : Frame} {outer outer' : List Frame} {x y : Expecting} (h : Abreast f x g y)
    (ho : List.Forall₂ Frame.Alike outer outer') : Alike (.go f outer x) (.go g outer' y)

/-- Where AND does not follow, only the group as a whole matters. -/
theorem turn_alike_of_close (h : (f.close c).meaning = (g.close d).meaning)
    (ho : List.Forall₂ Frame.Alike outer outer') (hl : l ≠ .keyword .AND) :
    (turn f outer (.connective c) l).Alike (turn g outer' (.connective d) l) := by
  rw [turn, turn, if_neg hl, if_neg hl]
  by_cases hor : l = .keyword .OR
  · rw [if_pos hor, if_pos hor]
    refine .go (.operand ⟨?_, rfl⟩) ho
    rw [f.meaning_close, g.meaning_close] at h
    simpa [Frame.alternate] using h
  · rw [if_neg hor, if_neg hor]
    cases ho with
    | nil => exact .stop h
    | cons hf ho =>
      rw [leave, leave]
      split
      · exact .go (hf.abreast h) ho
      · exact .fail _

theorem turn_alike (h : Abreast f x g y) (ho : List.Forall₂ Frame.Alike outer outer')
    (l : Lexeme) : (turn f outer x l).Alike (turn g outer' y l) := by
  cases h with
  | operand h =>
    rw [turn, turn]
    cases l.column? with
    | some column => exact .go (.comparator h column) ho
    | none =>
      dsimp only
      split
      · exact .go (.refl _ _) (.cons h ho)
      · exact .fail _
  | comparator h column =>
    rw [turn, turn]
    cases l.comparator? with
    | some op => exact .go (.literal h column op) ho
    | none => exact .fail _
  | literal h column op =>
    rw [turn, turn]
    cases l.literal? with
    | some v => exact .go (h.abreast rfl) ho
    | none => exact .fail _
  | connective ha hc =>
    by_cases hl : l = .keyword .AND
    · rw [turn, turn, if_pos hl, if_pos hl]
      refine .go (.operand ⟨ha, ?_⟩) ho
      rw [Frame.meaning_conjunction, Frame.meaning_conjunction] at hc
      simpa [Frame.conjoin] using hc
    · exact turn_alike_of_close (Abreast.connective ha hc).meaning_close ho hl

/-! ## What is told of a reading -/

/-- The meaning of what is read, and the lexeme that it ends before, if there is one. -/
def told (r : Except ConditionFault (Condition × List Token)) :
    Except ConditionFault ((List Text → Except Failure Predicate) × Option Lexeme) :=
  r.map fun r => (r.1.meaning, r.2.head?.map Token.lexeme)

/-- From states that are alike the same is told of the same lexemes. -/
theorem told_readFrom (h : Abreast f x g y) (ho : List.Forall₂ Frame.Alike outer outer')
    (hts : ts.map Token.lexeme = ts'.map Token.lexeme) :
    told (readFrom f outer x ts) = told (readFrom g outer' y ts') := by
  -- On the tokens: one of them leads from states that are alike to such states again, or ends both
  -- readings in the same way.
  induction ts generalizing f outer x g outer' y ts' with
  | nil =>
    cases List.map_eq_nil_iff.1 hts.symm
    cases h with
    | operand | comparator | literal => rw [readFrom, readFrom]
    | connective ha hc =>
      cases ho with
      | nil =>
        rw [readFrom, readFrom, told, told, Except.map, Except.map,
          (Abreast.connective ha hc).meaning_close]
      | cons => rw [readFrom, readFrom]
  | cons t ts ih =>
    obtain ⟨t', ts', rfl, ht, hts⟩ := List.map_eq_cons_iff.1 hts.symm
    have hturn := turn_alike h ho t.lexeme
    rw [readFrom_cons, readFrom_cons, ht]
    generalize turn f outer x t.lexeme = r at hturn ⊢
    generalize turn g outer' y t.lexeme = r' at hturn ⊢
    cases hturn with
    | fail fault => rfl
    | stop hc => simp [told, Except.map, hc, ht]
    | go h ho => exact ih h ho hts.symm

theorem told_read_congr (hts : ts.map Token.lexeme = ts'.map Token.lexeme) :
    told (read ts) = told (read ts') := told_readFrom (.refl _ _) .nil hts

/-- So it is behind any operand, if AND does not follow and the groups as a whole mean the same. -/
theorem told_readFrom_of_close (h : (f.close c).meaning = (g.close d).meaning)
    (ho : List.Forall₂ Frame.Alike outer outer') (hts : NoAnd (ts.map Token.lexeme)) :
    told (readFrom f outer (.connective c) ts) = told (readFrom g outer' (.connective d) ts) := by
  cases ts with
  | nil =>
    cases ho with
    | nil => rw [readFrom, readFrom, told, told, Except.map, Except.map, h]
    | cons => rw [readFrom, readFrom]
  | cons t ts =>
    have hturn := turn_alike_of_close h ho fun hl => hts (congrArg some hl)
    rw [readFrom_cons, readFrom_cons]
    generalize turn f outer (.connective c) t.lexeme = r at hturn ⊢
    generalize turn g outer' (.connective d) t.lexeme = r' at hturn ⊢
    cases hturn with
    | fail fault => rfl
    | stop hc => simp [told, Except.map, hc]
    | go h ho => exact told_readFrom h ho rfl

/-! ## Where operands begin -/

/-- A condition or an operand may begin behind the lexeme. -/
def Opens (l : Lexeme) : Prop := l = .keyword .AND ∨ l = .keyword .OR ∨ l = .mark .opening

/-- The state that the reader is in once it has taken tokens from the beginning. -/
inductive Lands : List Token → Frame → List Frame → Expecting → Prop
  | start : Lands [] .empty [] .operand
  | turn {us : List Token} {t : Token} {f g : Frame} {outer outer' : List Frame} {x y : Expecting}
    (h : Lands us f outer x) (ht : turn f outer x t.lexeme = .go g outer' y) :
    Lands (us ++ [t]) g outer' y

/-- Behind the same tokens, what is told depends on the states that they may lead to alone. -/
theorem told_read_append (us : List Token) {vs ws : List Token}
    (h : ∀ f outer x, Lands us f outer x →
      told (readFrom f outer x vs) = told (readFrom f outer x ws)) :
    told (read (us ++ vs)) = told (read (us ++ ws)) := by
  induction us using List.reverseRecOn generalizing vs ws with
  | nil => exact h _ _ _ .start
  | append_singleton us t ih =>
    rw [List.append_assoc, List.append_assoc]
    refine ih fun f outer x hus => ?_
    rw [List.singleton_append, List.singleton_append, readFrom_cons, readFrom_cons]
    cases ht : turn f outer x t.lexeme with
    | fail fault => rfl
    | stop c => rfl
    | go g outer next => exact h _ _ _ (.turn hus ht)

/-- Behind a lexeme that opens, an operand is expected, and it is the first of a conjunction if the
lexeme is not AND. -/
theorem turn_of_opens (hl : Opens l) (h : turn f outer x l = .go g outer' y) :
    y = .operand ∧ (l ≠ .keyword .AND → g.conjuncts = []) := by
  cases x with
  | operand =>
    obtain rfl | rfl | rfl := hl <;> cases h
    exact ⟨rfl, fun _ => rfl⟩
  | comparator column => obtain rfl | rfl | rfl := hl <;> cases h
  | literal column op => obtain rfl | rfl | rfl := hl <;> cases h
  | connective last =>
    obtain rfl | rfl | rfl := hl
    · cases h
      exact ⟨rfl, fun hl => absurd rfl hl⟩
    · cases h
      exact ⟨rfl, fun _ => rfl⟩
    · cases outer <;> cases h

theorem Lands.of_opens (h : Lands us f outer x)
    (hus : ∀ l ∈ (us.map Token.lexeme).getLast?, Opens l) :
    x = .operand ∧ ((us.map Token.lexeme).getLast? ≠ some (.keyword .AND) → f.conjuncts = []) := by
  cases h with
  | start => exact ⟨rfl, fun _ => rfl⟩
  | @turn us t f g outer outer' x y h ht =>
    have hlast : ((us ++ [t]).map Token.lexeme).getLast? = some t.lexeme := by simp
    rw [hlast] at hus ⊢
    obtain ⟨hx, hf⟩ := turn_of_opens (hus _ rfl) ht
    exact ⟨hx, fun hand => hf fun hl => hand (congrArg some hl)⟩

/-! ## Parentheses -/

/-- Between the lexemes before and behind them, lexemes are what parentheses may be put around: a
condition or an operand may begin with them, and they are operands of AND, or operands of OR with no
AND beside them. -/
structure Redundant (ks ms ls : List Lexeme) : Prop where
  behind : ∀ l ∈ ks.getLast?, Opens l
  operands : (∃ c : Conjunction, c.yield = ms) ∨
    ∃ d : Disjunction, d.yield = ms ∧ ks.getLast? ≠ some (.keyword .AND) ∧ NoAnd ls

theorem Primary.yield_ne_nil (p : Primary) : p.yield ≠ [] := by
  cases p <;> exact List.cons_ne_nil _ _

theorem Conjunction.yield_ne_nil (c : Conjunction) : c.yield ≠ [] := by
  cases c with
  | one p => exact p.yield_ne_nil
  | and p rest => exact List.append_ne_nil_of_left_ne_nil p.yield_ne_nil _

theorem Disjunction.yield_ne_nil (d : Disjunction) : d.yield ≠ [] := by
  cases d with
  | one c => exact c.yield_ne_nil
  | or c rest => exact List.append_ne_nil_of_left_ne_nil c.yield_ne_nil _

theorem Redundant.ne_nil {ks ms ls : List Lexeme} (h : Redundant ks ms ls) : ms ≠ [] := by
  obtain ⟨c, rfl⟩ | ⟨d, rfl, -⟩ := h.operands
  · exact c.yield_ne_nil
  · exact d.yield_ne_nil

/-- A conjunction in parentheses is read as if it had none. -/
theorem Conjunction.abreast_walk (c : Conjunction) (f : Frame) :
    Abreast f (.connective c.tree) (c.walk f).1 (.connective (c.walk f).2) := by
  obtain ⟨ha, hc⟩ := c.conjunction_walk f
  refine .connective (by rw [ha]) ?_
  rw [hc, meaning_grouped, f.meaning_conjunction]
  refine (meaning_group_concat rfl ?_).trans (meaning_group_concat_group .and _ c.operands)
  rw [c.tree_eq, meaning_grouped]

theorem Disjunction.meaning_close_walk (d : Disjunction) (hf : f.conjuncts = []) :
    (f.close d.tree).meaning = ((d.walk f).1.close (d.walk f).2).meaning := by
  rw [d.close_walk hf, meaning_grouped, f.meaning_close]
  refine (meaning_group_concat rfl ?_).trans (meaning_group_concat_group .or _ d.operands)
  rw [f.meaning_conjunction, hf, d.tree_eq]
  exact (meaning_group_singleton _ _).trans (meaning_grouped _ _)

/-- The same is told of tokens with redundant parentheses and without, wherever they stand. -/
theorem told_read_parenthesized {o e : Token} {vs' ws' : List Token}
    (ho : o.lexeme = .mark .opening) (he : e.lexeme = .mark .closing)
    (hvs : vs'.map Token.lexeme = vs.map Token.lexeme)
    (hws : ws'.map Token.lexeme = ws.map Token.lexeme)
    (h : Redundant (us.map Token.lexeme) (vs.map Token.lexeme) (ws.map Token.lexeme)) :
    told (read (us ++ (o :: (vs' ++ [e]) ++ ws'))) = told (read (us ++ (vs ++ ws))) := by
  have hwhole : (us ++ (vs' ++ ws')).map Token.lexeme = (us ++ (vs ++ ws)).map Token.lexeme := by
    simp [hvs, hws]
  rw [← told_read_congr hwhole]
  -- Where operands may begin, the states behind them with parentheses and without can be compared:
  -- behind a conjunction they are alike, and behind a disjunction the whole groups are.
  refine told_read_append us fun f outer x hus => ?_
  obtain ⟨rfl, hf⟩ := hus.of_opens h.behind
  have hself : List.Forall₂ Frame.Alike outer outer := List.forall₂_same.2 fun f _ => .refl f
  obtain ⟨c, hc⟩ | ⟨d, hd, hks, hls⟩ := h.operands
  · rw [← hc] at hvs
    have hgroup : (o :: (vs' ++ [e])).map Token.lexeme = (Primary.group (.one c)).yield := by
      simp [Primary.yield, Disjunction.yield, ho, he, hvs]
    rw [Primary.readFrom_eq _ f outer hgroup, c.readFrom_eq f outer hvs]
    exact told_readFrom (c.abreast_walk f) hself rfl
  · rw [← hd] at hvs
    rw [← hws] at hls
    have hgroup : (o :: (vs' ++ [e])).map Token.lexeme = (Primary.group d).yield := by
      simp [Primary.yield, ho, he, hvs]
    rw [Primary.readFrom_eq _ f outer hgroup, d.readFrom_eq f outer hvs]
    exact told_readFrom_of_close (d.meaning_close_walk (hf hks)) hself hls

/-- It is the condition and the end of the text that are told of, or the fault. -/
theorem told_eq {r r' : Except ConditionFault (Condition × List Token)} (h : told r = told r') :
    (∃ fault, r = .error fault ∧ r' = .error fault) ∨ ∃ c c' ts ts', r = .ok (c, ts) ∧
      r' = .ok (c', ts') ∧ c.meaning = c'.meaning ∧
      ts.head?.map Token.lexeme = ts'.head?.map Token.lexeme := by
  cases r with
  | error fault =>
    cases r' with
    | error fault' =>
      cases h
      exact .inl ⟨_, rfl, rfl⟩
    | ok r' => cases h
  | ok r =>
    cases r' with
    | error fault' => cases h
    | ok r' =>
      obtain ⟨hc, hts⟩ := Prod.mk.inj (Except.ok.inj h)
      exact .inr ⟨_, _, _, _, rfl, rfl, hc, hts⟩

/-! ## Texts -/

/-- The second text is the first one with redundant parentheses between its tokens. -/
inductive Parenthesized : Text → Text → Prop
  | intro {before mid after : Text} {us vs ws : List Token}
    (cut : Token.Cut before mid after us vs ws)
    (redundant : Redundant (us.map Token.lexeme) (vs.map Token.lexeme) (ws.map Token.lexeme)) :
    Parenthesized (before ++ mid ++ after) (before ++ (['('] ++ mid ++ [')']) ++ after)

/-- They can be put wherever the tokens of a text allow it. -/
theorem exists_parenthesized {t : Text} {us vs ws : List Token}
    (h : Token.scan t = .ok (us ++ (vs ++ ws)))
    (hr : Redundant (us.map Token.lexeme) (vs.map Token.lexeme) (ws.map Token.lexeme)) :
    ∃ before mid after, t = before ++ mid ++ after ∧
      Parenthesized t (before ++ (['('] ++ mid ++ [')']) ++ after) := by
  obtain ⟨before, mid, after, rfl, hcut⟩ := Token.exists_cut h
  exact ⟨before, mid, after, rfl, .intro hcut hr⟩

/-- They change neither what a text means as a condition nor why it is none. -/
theorem Parenthesized.map_meaning_eq {t t' : Text} (h : Parenthesized t t') :
    (ofText t').map meaning = (ofText t).map meaning := by
  obtain ⟨cut, redundant⟩ := h
  obtain ⟨o, e, vs', ws', hscan, ho, he, hvs, hws⟩ := cut.exists_scan
  rw [ofText_of_scan hscan, ofText_of_scan cut.whole]
  obtain ⟨fault, h', h⟩ | ⟨c', c, ts', ts, h', h, hc, hts⟩ :=
    told_eq (told_read_parenthesized ho he hvs hws redundant)
  · rw [h', h]
  · rw [h', h]
    cases ts' with
    | nil =>
      cases ts with
      | nil => exact congrArg Except.ok hc
      | cons t ts => cases hts
    | cons t' ts' =>
      cases ts with
      | nil => cases hts
      | cons t ts =>
        have ht : t'.text = t.text := congrArg Lexeme.text (Option.some.inj hts)
        dsimp only
        rw [ht]

end Condition

end Tabular
