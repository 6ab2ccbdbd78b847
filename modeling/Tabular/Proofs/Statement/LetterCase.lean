import Tabular.Proofs.Condition.LetterCase
import Tabular.Proofs.Statement.Gaps
import Tabular.Proofs.Table.LetterCase

/-!
# Commands in another letter case

Databases, tables and the columns that a command refers to may be written in any letter case; new
columns and values may not. What a word in a command is written for is told by what stands before
it. Two commands that differ in the case of references alone are alike as statements, or neither is
one.
-/

namespace Tabular

namespace Statement

/-! ## Places in a command -/

/-- What a word at a place in a command is for: it may refer to something, or it is the value that
an operator asks for, or values and new columns are all that is left. -/
inductive Spot where
  | reference | value | given
  deriving DecidableEq

/-- Nothing but values or new columns stands behind the lexeme in a command that begins with
`head`. -/
def endsReferences : (head : Option Lexeme) → Lexeme → Bool
  | some (.keyword .CREATE), .mark .opening => true
  | some (.keyword .ALTER), .keyword .ADD => true
  | some (.keyword .INSERT), .keyword .VALUES => true
  | _, _ => false

/-- The next place, behind a lexeme. -/
def Spot.after (head : Option Lexeme) : Spot → Lexeme → Spot
  | .given, _ => .given
  | _, l =>
    if endsReferences head l then .given
    else match l with
      | .operator _ | .keyword .LIKE => .value
      | _ => .reference

/-- Lexemes that are the same but for references, which are related. -/
inductive Recased (R : Text → Text → Prop) (head : Option Lexeme) :
    Spot → List Lexeme → List Lexeme → Prop
  | nil {spot : Spot} : Recased R head spot [] []
  | same {spot : Spot} {l : Lexeme} {ls ls' : List Lexeme}
    (rest : Recased R head (spot.after head l) ls ls') : Recased R head spot (l :: ls) (l :: ls')
  | reference {t t' : Text} {ls ls' : List Lexeme} (h : R t t')
    (rest : Recased R head .reference ls ls') :
    Recased R head .reference (.identifier t :: ls) (.identifier t' :: ls')

/-- The lexemes of commands that differ in nothing but the letter case of references; the word that
a command begins with is none. -/
def Recasing (ls ls' : List Lexeme) : Prop :=
  Recased Text.SameLetters ls.head? .value ls ls'

section Recased

variable {R S : Text → Text → Prop} {head : Option Lexeme} {spot : Spot} {l : Lexeme}
  {ks ls ls' : List Lexeme}

@[simp] theorem Spot.after_given (head : Option Lexeme) (l : Lexeme) :
    Spot.after head .given l = .given := rfl

theorem Spot.after_identifier (head : Option Lexeme) (t : Text) :
    Spot.after head .reference (.identifier t) = .reference := by
  cases head with
  | none => rfl
  | some l =>
    cases l with
    | keyword k => cases k <;> rfl
    | _ => rfl

theorem Spot.after_of_endsReferences (h : endsReferences head l) (spot : Spot) :
    spot.after head l = .given := by
  unfold Spot.after
  split
  · rfl
  · rw [if_pos h]

/-- An operator asks for a value, if a reference may still follow at all. -/
theorem Spot.after_ne_reference (head : Option Lexeme) (spot : Spot) {l : Lexeme}
    (h : (∃ o, l = .operator o) ∨ l = .keyword .LIKE) : spot.after head l ≠ .reference := by
  unfold Spot.after
  split
  · nofun
  split
  · nofun
  obtain ⟨o, rfl⟩ | rfl := h <;> nofun

theorem Recased.symm (h : Recased R head spot ls ls') :
    Recased (fun t t' => R t' t) head spot ls' ls := by
  induction h with
  | nil => exact .nil
  | same _ ih => exact .same ih
  | reference h _ ih => exact .reference h ih

/-- The references may be related in another way as well. -/
theorem Recased.imp (h : Recased R head spot ls ls')
    (hRS : ∀ t t', .identifier t ∈ ls → .identifier t' ∈ ls' → R t t' → S t t') :
    Recased S head spot ls ls' := by
  induction h with
  | nil => exact .nil
  | same _ ih => exact .same (ih fun t t' ht ht' => hRS t t' (by simp [ht]) (by simp [ht']))
  | reference h _ ih =>
    exact .reference (hRS _ _ (by simp) (by simp) h)
      (ih fun t t' ht ht' => hRS t t' (by simp [ht]) (by simp [ht']))

theorem Recased.eq_nil (h : Recased R head spot [] ls') : ls' = [] := by
  cases h
  rfl

theorem Recased.eq_of_given (h : Recased R head .given ls ls') : ls' = ls := by
  generalize hs : Spot.given = spot at h
  induction h with
  | nil => rfl
  | same _ ih =>
    subst hs
    rw [ih rfl]
  | reference => cases hs

theorem Recased.eq_of_not_mem (h : Recased R head spot ls ls') (hls : ∀ t, .identifier t ∉ ls) :
    ls' = ls := by
  induction h with
  | nil => rfl
  | same _ ih => rw [ih fun t ht => hls t (by simp [ht])]
  | @reference t => exact absurd List.mem_cons_self (hls t)

theorem Recased.append {ms : List Lexeme} (h : Recased R head spot (ks ++ ms) ls') :
    ∃ ks' ms' spot', ls' = ks' ++ ms' ∧ Recased R head spot ks ks' ∧ Recased R head spot' ms ms' := by
  induction ks generalizing spot ls' with
  | nil => exact ⟨[], ls', spot, rfl, .nil, h⟩
  | cons k ks ih =>
    cases h with
    | same rest =>
      obtain ⟨ks', ms', spot', rfl, hk, hm⟩ := ih rest
      exact ⟨k :: ks', ms', spot', rfl, .same hk, hm⟩
    | reference h rest =>
      obtain ⟨ks', ms', spot', rfl, hk, hm⟩ := ih rest
      exact ⟨_, ms', spot', rfl, .reference h hk, hm⟩

/-- Only identifiers are references. -/
theorem Recased.cons (h : Recased R head spot (l :: ls) ls')
    (hl : spot ≠ .reference ∨ ∀ t, l ≠ .identifier t) :
    ∃ ms, ls' = l :: ms ∧ Recased R head (spot.after head l) ls ms := by
  cases h with
  | same rest => exact ⟨_, rfl, rest⟩
  | reference h rest => simp at hl

end Recased

end Statement

/-! ## Conditions -/

namespace Condition

open Statement (Recased Spot)

variable {head : Option Lexeme} {spot : Spot} {l : Lexeme} {ls ls' : List Lexeme}

/-- A column in another letter case. -/
theorem exists_recased_column {n : Text} (h : Recased Name.Alike head spot (l :: ls) ls')
    (hn : l.column? = some n) : ∃ l' n' ms, ls' = l' :: ms ∧ l'.column? = some n' ∧
      Name.Alike n n' ∧ Recased Name.Alike head (spot.after head l) ls ms := by
  cases h with
  | same rest => exact ⟨l, n, _, rfl, hn, rfl, rest⟩
  | @reference t t' _ _ h rest =>
    cases hn
    exact ⟨_, t', _, rfl, rfl, h, by rwa [Spot.after_identifier]⟩

theorem Comparison.exists_recased (c : Comparison)
    (h : Recased Name.Alike head spot [c.column, c.sign, c.literal] ls') :
    ∃ c' : Comparison, [c'.column, c'.sign, c'.literal] = ls' ∧ Condition.Alike c.tree c'.tree := by
  obtain ⟨column, sign, literal, names, compares, stands⟩ := c
  change Recased Name.Alike head spot [column, sign, literal] ls' at h
  obtain ⟨n, hn⟩ := Option.isSome_iff_exists.1 names
  obtain ⟨op, hop⟩ := Option.isSome_iff_exists.1 compares
  obtain ⟨column', n', ms, rfl, hn', hnn, h₁⟩ := exists_recased_column h hn
  have hsign : (∃ o, sign = .operator o) ∨ sign = .keyword .LIKE := by
    unfold Lexeme.comparator? at hop
    split at hop
    · exact .inr rfl
    · exact .inl ⟨_, rfl⟩
    all_goals cases hop
  have hword : ∀ t, sign ≠ .identifier t := by
    rintro t rfl
    simp at hsign
  obtain ⟨ms, rfl, h₂⟩ := h₁.cons (.inr hword)
  obtain ⟨ms, rfl, h₃⟩ := h₂.cons (.inl (Spot.after_ne_reference head _ hsign))
  obtain rfl := h₃.eq_nil
  refine ⟨⟨column', sign, literal, by simp [hn'], compares, stands⟩, rfl, ?_⟩
  simpa [Comparison.tree, hn, hn'] using .compare hnn _ _

mutual

theorem Disjunction.exists_recased (d : Disjunction) {spot : Spot} {ls' : List Lexeme}
    (h : Recased Name.Alike head spot d.yield ls') :
    ∃ d' : Disjunction, d'.yield = ls' ∧ List.Forall₂ Condition.Alike d.operands d'.operands := by
  match d with
  | .one c =>
    obtain ⟨c', hc, ht⟩ := c.exists_recased h
    exact ⟨.one c', hc, .cons ht .nil⟩
  | .or c rest =>
    obtain ⟨ks, ms, _, rfl, hk, hm⟩ := h.append
    obtain ⟨ms, rfl, hr⟩ := hm.cons (.inr nofun)
    obtain ⟨c', rfl, ht⟩ := c.exists_recased hk
    obtain ⟨rest', rfl, hrest⟩ := rest.exists_recased hr
    exact ⟨.or c' rest', rfl, .cons ht hrest⟩

theorem Conjunction.exists_recased (c : Conjunction) {spot : Spot} {ls' : List Lexeme}
    (h : Recased Name.Alike head spot c.yield ls') :
    ∃ c' : Conjunction, c'.yield = ls' ∧ Condition.Alike c.tree c'.tree := by
  obtain ⟨c', hc, ht⟩ := c.exists_recased_operands h
  refine ⟨c', hc, ?_⟩
  rw [c.tree_eq, c'.tree_eq]
  exact alike_grouped .and ht

theorem Conjunction.exists_recased_operands (c : Conjunction) {spot : Spot} {ls' : List Lexeme}
    (h : Recased Name.Alike head spot c.yield ls') :
    ∃ c' : Conjunction, c'.yield = ls' ∧ List.Forall₂ Condition.Alike c.operands c'.operands := by
  match c with
  | .one p =>
    obtain ⟨p', hp, ht⟩ := p.exists_recased h
    exact ⟨.one p', hp, .cons ht .nil⟩
  | .and p rest =>
    obtain ⟨ks, ms, _, rfl, hk, hm⟩ := h.append
    obtain ⟨ms, rfl, hr⟩ := hm.cons (.inr nofun)
    obtain ⟨p', rfl, ht⟩ := p.exists_recased hk
    obtain ⟨rest', rfl, hrest⟩ := rest.exists_recased_operands hr
    exact ⟨.and p' rest', rfl, .cons ht hrest⟩

theorem Primary.exists_recased (p : Primary) {spot : Spot} {ls' : List Lexeme}
    (h : Recased Name.Alike head spot p.yield ls') :
    ∃ p' : Primary, p'.yield = ls' ∧ Condition.Alike p.tree p'.tree := by
  match p with
  | .comparison c =>
    obtain ⟨c', hc, ht⟩ := c.exists_recased h
    exact ⟨.comparison c', hc, ht⟩
  | .group d =>
    obtain ⟨ms, rfl, hinner⟩ := h.cons (.inr nofun)
    obtain ⟨ks, ms, _, rfl, hk, hm⟩ := hinner.append
    obtain ⟨ms, rfl, hend⟩ := hm.cons (.inr nofun)
    obtain rfl := hend.eq_nil
    obtain ⟨d', rfl, ht⟩ := d.exists_recased hk
    refine ⟨.group d', rfl, ?_⟩
    rw [Primary.tree, Primary.tree, d.tree_eq, d'.tree_eq]
    exact alike_grouped .or ht

end

theorem Disjunction.exists_recased_tree (d : Disjunction) {ls' : List Lexeme}
    (h : Recased Name.Alike head spot d.yield ls') :
    ∃ d' : Disjunction, d'.yield = ls' ∧ Condition.Alike d.tree d'.tree := by
  obtain ⟨d', hd, ht⟩ := d.exists_recased h
  refine ⟨d', hd, ?_⟩
  rw [d.tree_eq, d'.tree_eq]
  exact alike_grouped .or ht

end Condition

namespace Statement

/-! ## Parts of statements -/

section Parts

variable {head : Option Lexeme} {spot : Spot} {l : Lexeme} {ls ls' : List Lexeme}

/-- A name in another letter case. -/
theorem exists_recased_name {n : Text} (h : Recased Name.Alike head spot (l :: ls) ls')
    (hn : l.name? = some n) : ∃ l' n' ms, ls' = l' :: ms ∧ l'.name? = some n' ∧
      Name.Alike n n' ∧ Recased Name.Alike head (spot.after head l) ls ms := by
  cases h with
  | same rest => exact ⟨l, n, _, rfl, hn, rfl, rest⟩
  | @reference t t' _ _ h rest =>
    cases hn
    exact ⟨_, t', _, rfl, rfl, h, by rwa [Spot.after_identifier]⟩

theorem Series.exists_recased {α : Type} {item : List Lexeme → α → Prop} {S : α → α → Prop}
    (hitem : ∀ {spot ls ls' a}, item ls a → Recased Name.Alike head spot ls ls' →
      ∃ a', item ls' a' ∧ S a a') {as : List α} (hs : Series item ls as)
    (h : Recased Name.Alike head spot ls ls') :
    ∃ as', Series item ls' as' ∧ List.Forall₂ S as as' := by
  induction hs generalizing spot ls' with
  | one first =>
    obtain ⟨a', ha, hS⟩ := hitem first h
    exact ⟨[a'], .one ha, .cons hS .nil⟩
  | more first _ ih =>
    obtain ⟨ks, ms, _, rfl, hk, hm⟩ := h.append
    obtain ⟨ms, rfl, hr⟩ := hm.cons (.inr nofun)
    obtain ⟨a', ha, hS⟩ := hitem first hk
    obtain ⟨as', has, hSs⟩ := ih hr
    exact ⟨a' :: as', .more ha has, .cons hS hSs⟩

theorem IsColumn.exists_recased {n : Text} (hc : IsColumn ls n)
    (h : Recased Name.Alike head spot ls ls') : ∃ n', IsColumn ls' n' ∧ Name.Alike n n' := by
  obtain ⟨l, rfl, hl⟩ := hc
  obtain ⟨l', n', ms, rfl, hn, hnn, hend⟩ := exists_recased_name h hl
  obtain rfl := hend.eq_nil
  exact ⟨n', ⟨l', rfl, hn⟩, hnn⟩

theorem Assigns.exists_recased {a : Text × Value} (ha : Assigns ls a)
    (h : Recased Name.Alike head spot ls ls') :
    ∃ a', Assigns ls' a' ∧ Name.Alike a.1 a'.1 ∧ a.2 = a'.2 := by
  obtain ⟨l, m, rfl, hl, hm⟩ := ha
  obtain ⟨l', n', ms, rfl, hn, hnn, h₁⟩ := exists_recased_name h hl
  obtain ⟨ms, rfl, h₂⟩ := h₁.cons (.inr nofun)
  obtain ⟨ms, rfl, h₃⟩ := h₂.cons (.inl (Spot.after_ne_reference head _ (.inl ⟨_, rfl⟩)))
  obtain rfl := h₃.eq_nil
  exact ⟨(n', a.2), ⟨l', m, rfl, hn, hm⟩, hnn, rfl⟩

theorem WantedColumns.exists_recased {columns : Option (List Text)} (hc : WantedColumns ls columns)
    (h : Recased Name.Alike head spot ls ls') :
    ∃ columns', WantedColumns ls' columns' ∧
      Option.Rel (List.Forall₂ Name.Alike) columns columns' := by
  cases hc with
  | star =>
    obtain ⟨ms, rfl, hend⟩ := h.cons (.inr nofun)
    obtain rfl := hend.eq_nil
    exact ⟨none, .star, .none⟩
  | listed series =>
    obtain ⟨columns', hc, hall⟩ := series.exists_recased IsColumn.exists_recased h
    exact ⟨some columns', .listed hc, .some hall⟩

theorem Where.exists_recased {condition : Option Condition} (hw : Where ls condition)
    (h : Recased Name.Alike head spot ls ls') :
    ∃ condition', Where ls' condition' ∧ Option.Rel Condition.Alike condition condition' := by
  cases hw with
  | left =>
    cases h
    exact ⟨none, .left, .none⟩
  | given d =>
    obtain ⟨ms, rfl, hd⟩ := h.cons (.inr nofun)
    obtain ⟨d', rfl, ht⟩ := d.exists_recased_tree hd
    exact ⟨_, .given d', .some ht⟩

/-- The columns of a new table are spelled alike. -/
theorem NewColumns.eq_of_recased {columns : List Text} (hc : NewColumns ls columns)
    (h : Recased Name.Alike (some (.keyword .CREATE)) spot ls ls') : ls' = ls := by
  cases hc with
  | left => exact h.eq_nil
  | listed series =>
    obtain ⟨ms, rfl, hrest⟩ := h.cons (.inr nofun)
    rw [Spot.after_of_endsReferences rfl] at hrest
    rw [hrest.eq_of_given]

end Parts

/-! ## Statements -/

/-- Statements that differ in the letter case of the columns that they refer to. -/
inductive Alike : Statement → Statement → Prop
  | same (s : Statement) : Alike s s
  | dropColumn (t : Text) {column column' : Text} (h : Name.Alike column column') :
    Alike (.alterTable t .drop column) (.alterTable t .drop column')
  | select (t : Text) {columns columns' : Option (List Text)}
    {condition condition' : Option Condition}
    (hc : Option.Rel (List.Forall₂ Name.Alike) columns columns')
    (hw : Option.Rel Condition.Alike condition condition') :
    Alike (.select t columns condition) (.select t columns' condition')
  | update (t : Text) {assignments assignments' : List (Text × Value)}
    {condition condition' : Option Condition}
    (ha : Table.AlikeAssignments assignments assignments')
    (hw : Option.Rel Condition.Alike condition condition') :
    Alike (.update t assignments condition) (.update t assignments' condition')
  | delete (t : Text) {condition condition' : Option Condition}
    (hw : Option.Rel Condition.Alike condition condition') :
    Alike (.delete t condition) (.delete t condition')
  | join (left right : Text) {l l' r r' : Text} (hl : Name.Alike l l') (hr : Name.Alike r r') :
    Alike (.join left right l r) (.join left right l' r')

theorem Alike.label_eq {s s' : Statement} (h : Alike s s') : s'.label = s.label := by
  cases h <;> rfl

/-- In another letter case a statement is one that is alike. -/
theorem Form.exists_recased {ls ls' : List Lexeme} {s : Statement} (hf : Form ls s)
    (h : Recased Name.Alike ls.head? .value ls ls') : ∃ s', Form ls' s' ∧ Alike s s' := by
  cases hf with
  | use database =>
    obtain ⟨ms, rfl, h₁⟩ := h.cons (.inr nofun)
    obtain ⟨l', d', ms, rfl, hd, hdd, hend⟩ := exists_recased_name h₁ database
    obtain rfl := hend.eq_nil
    exact ⟨_, .use hd, hdd ▸ .same _⟩
  | createDatabase database =>
    obtain ⟨ms, rfl, h₁⟩ := h.cons (.inr nofun)
    obtain ⟨ms, rfl, h₂⟩ := h₁.cons (.inr nofun)
    obtain ⟨l', d', ms, rfl, hd, hdd, hend⟩ := exists_recased_name h₂ database
    obtain rfl := hend.eq_nil
    exact ⟨_, .createDatabase hd, hdd ▸ .same _⟩
  | dropDatabase database =>
    obtain ⟨ms, rfl, h₁⟩ := h.cons (.inr nofun)
    obtain ⟨ms, rfl, h₂⟩ := h₁.cons (.inr nofun)
    obtain ⟨l', d', ms, rfl, hd, hdd, hend⟩ := exists_recased_name h₂ database
    obtain rfl := hend.eq_nil
    exact ⟨_, .dropDatabase hd, hdd ▸ .same _⟩
  | createTable table made =>
    obtain ⟨ms, rfl, h₁⟩ := h.cons (.inr nofun)
    obtain ⟨ms, rfl, h₂⟩ := h₁.cons (.inr nofun)
    obtain ⟨l', t', ms, rfl, ht, htt, h₃⟩ := exists_recased_name h₂ table
    obtain rfl := made.eq_of_recased h₃
    exact ⟨_, .createTable ht made, htt ▸ .same _⟩
  | dropTable table =>
    obtain ⟨ms, rfl, h₁⟩ := h.cons (.inr nofun)
    obtain ⟨ms, rfl, h₂⟩ := h₁.cons (.inr nofun)
    obtain ⟨l', t', ms, rfl, ht, htt, hend⟩ := exists_recased_name h₂ table
    obtain rfl := hend.eq_nil
    exact ⟨_, .dropTable ht, htt ▸ .same _⟩
  | @alterTable l m t column action ls table word changed =>
    obtain ⟨ms, rfl, h₁⟩ := h.cons (.inr nofun)
    obtain ⟨ms, rfl, h₂⟩ := h₁.cons (.inr nofun)
    obtain ⟨l', t', ms, rfl, ht, htt, h₃⟩ := exists_recased_name h₂ table
    obtain ⟨ms, rfl, h₄⟩ := h₃.cons (.inr nofun)
    cases action with
    | add =>
      -- The new column is spelled alike.
      rw [Spot.after_of_endsReferences rfl] at h₄
      obtain rfl := h₄.eq_of_given
      exact ⟨_, .alterTable ht word changed, htt ▸ .same _⟩
    | drop =>
      obtain ⟨ks, ms, _, rfl, hk, h₅⟩ := h₄.append
      obtain rfl := hk.eq_of_not_mem fun t => by obtain rfl | rfl := word <;> simp
      obtain ⟨m', column', ms, rfl, hm, hmm, hend⟩ := exists_recased_name h₅ changed
      obtain rfl := hend.eq_nil
      exact ⟨_, .alterTable ht word hm, htt ▸ .dropColumn _ hmm⟩
  | insert table row =>
    obtain ⟨ms, rfl, h₁⟩ := h.cons (.inr nofun)
    obtain ⟨ms, rfl, h₂⟩ := h₁.cons (.inr nofun)
    obtain ⟨l', t', ms, rfl, ht, htt, h₃⟩ := exists_recased_name h₂ table
    obtain ⟨ms, rfl, h₄⟩ := h₃.cons (.inr nofun)
    rw [Spot.after_of_endsReferences rfl] at h₄
    obtain rfl := h₄.eq_of_given
    exact ⟨_, .insert ht row, htt ▸ .same _⟩
  | select wanted table rows =>
    obtain ⟨ms, rfl, h₁⟩ := h.cons (.inr nofun)
    obtain ⟨ks, ms, _, rfl, hk, h₂⟩ := h₁.append
    obtain ⟨columns', hc, hcc⟩ := wanted.exists_recased hk
    obtain ⟨ms, rfl, h₃⟩ := h₂.cons (.inr nofun)
    obtain ⟨l', t', ms, rfl, ht, htt, h₄⟩ := exists_recased_name h₃ table
    obtain ⟨condition', hw, hww⟩ := rows.exists_recased h₄
    exact ⟨_, .select hc ht hw, htt ▸ .select _ hcc hww⟩
  | update table changes rows =>
    obtain ⟨ms, rfl, h₁⟩ := h.cons (.inr nofun)
    obtain ⟨l', t', ms, rfl, ht, htt, h₂⟩ := exists_recased_name h₁ table
    obtain ⟨ms, rfl, h₃⟩ := h₂.cons (.inr nofun)
    obtain ⟨ks, ms, _, rfl, hk, h₄⟩ := h₃.append
    obtain ⟨assignments', ha, haa⟩ := changes.exists_recased Assigns.exists_recased hk
    obtain ⟨condition', hw, hww⟩ := rows.exists_recased h₄
    exact ⟨_, .update ht ha hw, htt ▸ .update _ haa hww⟩
  | delete table rows =>
    obtain ⟨ms, rfl, h₁⟩ := h.cons (.inr nofun)
    obtain ⟨ms, rfl, h₂⟩ := h₁.cons (.inr nofun)
    obtain ⟨l', t', ms, rfl, ht, htt, h₃⟩ := exists_recased_name h₂ table
    obtain ⟨condition', hw, hww⟩ := rows.exists_recased h₃
    exact ⟨_, .delete ht hw, htt ▸ .delete _ hww⟩
  | join leftTable rightTable leftKey rightKey =>
    obtain ⟨ms, rfl, h₁⟩ := h.cons (.inr nofun)
    obtain ⟨l', left', ms, rfl, hl, hll, h₂⟩ := exists_recased_name h₁ leftTable
    obtain ⟨ms, rfl, h₃⟩ := h₂.cons (.inr nofun)
    obtain ⟨r', right', ms, rfl, hr, hrr, h₄⟩ := exists_recased_name h₃ rightTable
    obtain ⟨ms, rfl, h₅⟩ := h₄.cons (.inr nofun)
    obtain ⟨lc', leftColumn', ms, rfl, hlc, hlcc, h₆⟩ := exists_recased_name h₅ leftKey
    obtain ⟨ms, rfl, h₇⟩ := h₆.cons (.inr nofun)
    obtain ⟨rc', rightColumn', ms, rfl, hrc, hrcc, hend⟩ := exists_recased_name h₇ rightKey
    obtain rfl := hend.eq_nil
    exact ⟨_, .join hl hr hlc hrc, hll ▸ hrr ▸ .join _ _ hlcc hrcc⟩

/-! ## Commands -/

theorem Recasing.symm {ls ls' : List Lexeme} (h : Recasing ls ls') : Recasing ls' ls := by
  have hhead : ls'.head? = ls.head? := by
    unfold Recasing at h
    cases ls with
    | nil => rw [h.eq_nil]
    | cons l ls =>
      obtain ⟨ms, rfl, -⟩ := h.cons (.inl nofun)
      rfl
  rw [Recasing, hhead]
  exact (Recased.symm h).imp fun _ _ _ _ => Eq.symm

theorem Recasing.exists_form {ls ls' : List Lexeme} {s : Statement} (h : Recasing ls ls')
    (hls : ∀ l ∈ ls, l.IsScanned) (hls' : ∀ l ∈ ls', l.IsScanned) (hf : Form ls s) :
    ∃ s', Form ls' s' ∧ Alike s s' := by
  refine hf.exists_recased (Recased.imp h fun t t' ht ht' htt => ?_)
  exact htt.lower_eq (Name.isPlain_iff.1 (hls _ ht).1).2 (Name.isPlain_iff.1 (hls' _ ht').1).2

/-- The lexemes of a command, if it ends as one and can be scanned. -/
def lexemes? (command : Text) : Option (List Lexeme) :=
  (commandBody command).toOption.bind Token.lexemes?

theorem scanned_of_lexemes? {c : Text} {ls : List Lexeme} (h : lexemes? c = some ls) :
    ∀ l ∈ ls, l.IsScanned := by
  obtain ⟨body, -, hls⟩ := Option.bind_eq_some_iff.1 h
  obtain ⟨ts, hts, rfl⟩ := Token.lexemes?_eq_some_iff.1 hls
  exact List.forall_mem_map.2 (Token.scan_scanned hts)

/-- A command with lexemes is the statement that they have the form of. -/
theorem ofCommand_eq_ok_iff_lexemes? {c : Text} {ls : List Lexeme} {s : Statement}
    (h : lexemes? c = some ls) : ofCommand c = .ok s ↔ Form ls s := by
  obtain ⟨body, hbody, hls⟩ := Option.bind_eq_some_iff.1 h
  rw [Except.toOption_eq_some_iff] at hbody
  simp only [ofCommand_eq_ok_iff, hbody, Except.ok.injEq, exists_eq_left',
    ofText_eq_ok_iff_lexemes?, hls, Option.some.injEq]

/-- Commands that differ in nothing but the letter case of references are alike as statements, or
neither is one. -/
theorem agrees_ofCommand {c c' : Text} {ls ls' : List Lexeme} (hc : lexemes? c = some ls)
    (hc' : lexemes? c' = some ls') (h : Recasing ls ls') :
    (ofCommand c).Agrees Alike (ofCommand c') := by
  have hls := scanned_of_lexemes? hc
  have hls' := scanned_of_lexemes? hc'
  cases hs : ofCommand c with
  | ok s =>
    obtain ⟨s', hf, ha⟩ :=
      h.exists_form hls hls' ((ofCommand_eq_ok_iff_lexemes? hc).1 hs)
    rw [(ofCommand_eq_ok_iff_lexemes? hc').2 hf]
    exact .ok ha
  | error cause =>
    cases hs' : ofCommand c' with
    | error cause' => exact .error cause cause'
    | ok s' =>
      obtain ⟨s, hf, -⟩ :=
        h.symm.exists_form hls' hls ((ofCommand_eq_ok_iff_lexemes? hc').1 hs')
      rw [(ofCommand_eq_ok_iff_lexemes? hc).2 hf] at hs
      cases hs

end Statement

end Tabular
