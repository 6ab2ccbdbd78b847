import Tabular.Proofs.Condition.Grammar
import Tabular.Proofs.Token.ReadBack

/-!
# Conditions written out and read back

A condition is written out with each group in parentheses. A condition that was read from a text
without quotes is the one that is read back from what is written.
-/

namespace Tabular

namespace Lexeme

variable {l : Lexeme}

theorem column?_eq_text {column : Text} (h : l.column? = some column) : column = l.text := by
  cases l <;> cases h <;> rfl

theorem comparator?_text {op : Comparator} (h : l.comparator? = some op) : op.text = l.text := by
  cases l with
  | keyword k => cases k <;> cases h; rfl
  | operator o => cases o <;> cases h <;> rfl
  | _ => cases h

end Lexeme

def Connective.keyword : Connective → Keyword
  | .and => .AND
  | .or => .OR

theorem Connective.text_eq (op : Connective) : op.text = op.keyword.text := by
  cases op <;> rfl

namespace Condition

/-! ## Operands beside each other -/

/-- Primaries with one connective between them. -/
def Disjunction.chain (op : Connective) (p : Primary) : List Primary → Disjunction
  | [] => .one (.one p)
  | q :: ps =>
    match op with
    | .and => (chain .and q ps).conjoin p
    | .or => .or (.one p) (chain .or q ps)

variable (op : Connective) (p q : Primary) (ps : List Primary)

theorem Disjunction.yield_chain : (chain op p (q :: ps)).yield =
    p.yield ++ .keyword op.keyword :: (chain op q ps).yield := by
  cases op
  · exact yield_conjoin p _
  · rfl

theorem Disjunction.exists_chain_and :
    ∃ c : Conjunction, chain .and p ps = .one c ∧ c.operands = (p :: ps).map Primary.tree := by
  induction ps generalizing p with
  | nil => exact ⟨.one p, rfl, rfl⟩
  | cons q ps ih =>
    obtain ⟨c, hchain, hc⟩ := ih q
    refine ⟨.and p c, by rw [chain, hchain]; rfl, ?_⟩
    rw [Conjunction.operands, hc]
    rfl

theorem Disjunction.operands_chain_or : (chain .or p ps).operands = (p :: ps).map Primary.tree := by
  induction ps generalizing p with
  | nil => rfl
  | cons q ps ih =>
    rw [chain, operands, ih]
    rfl

theorem Disjunction.tree_chain : (chain op p ps).tree = grouped op ((p :: ps).map Primary.tree) := by
  cases op
  · obtain ⟨c, hchain, hc⟩ := exists_chain_and p ps
    rw [hchain, Disjunction.tree, c.tree_eq, hc]
  · rw [tree_eq, operands_chain_or]

/-! ## Writing -/

/-- What is written for the condition is a primary whose condition it is. -/
def ReadsBack (c : Condition) : Prop :=
  ∃ p : Primary, p.tree = c ∧ Token.lexemes? c.text = some p.yield

variable {op} {c : Condition} {cs : List Condition}

/-- Operands with the connective between them. -/
theorem exists_chain (h : ∀ d ∈ c :: cs, ReadsBack d) :
    ∃ p ps, (p :: ps).map Primary.tree = c :: cs ∧
      Token.lexemes? (Text.join ([' '] ++ op.text ++ [' ']) ((c :: cs).map text)) =
        some (Disjunction.chain op p ps).yield := by
  induction cs generalizing c with
  | nil =>
    obtain ⟨p, rfl, hp⟩ := h c (by simp)
    have hjoin : Text.join ([' '] ++ op.text ++ [' ']) ([p.tree].map text) = p.tree.text := by
      simp [Text.join]
    exact ⟨p, [], rfl, by rw [hjoin]; exact hp⟩
  | cons d cs ih =>
    obtain ⟨hc, hrest⟩ := List.forall_mem_cons.1 h
    obtain ⟨p, rfl, hp⟩ := hc
    obtain ⟨q, ps, htrees, hq⟩ := ih hrest
    refine ⟨p, q :: ps, by rw [List.map_cons, htrees], ?_⟩
    have hjoin : Text.join ([' '] ++ op.text ++ [' ']) ((p.tree :: d :: cs).map text) =
        p.tree.text ++ ' ' :: (op.keyword.text ++ ' ' ::
          Text.join ([' '] ++ op.text ++ [' ']) ((d :: cs).map text)) := by
      simp [Text.join, Connective.text_eq]
    have hkeyword := (Lexeme.isBare_keyword op.keyword).readBack
    rw [hjoin, Disjunction.yield_chain]
    exact Token.lexemes?_spaced hp (Token.lexemes?_spaced hkeyword hq)

theorem readsBack_grouped (hne : cs ≠ []) (h : ∀ c ∈ cs, ReadsBack c) :
    ReadsBack (grouped op cs) := by
  match cs with
  | [c] => exact h c (by simp)
  | c :: d :: cs =>
    obtain ⟨p, ps, htrees, hchain⟩ := @exists_chain op _ _ h
    refine ⟨.group (Disjunction.chain op p ps), ?_, ?_⟩
    · rw [Primary.tree, Disjunction.tree_chain, htrees]
    · change Token.lexemes? (text (.group op (c :: d :: cs))) = _
      rw [text, texts_eq_map]
      exact Token.lexemes?_enclosed hchain

/-! ## What is read without quotes -/

/-- A comparison is written with the lexemes that it was read from. -/
theorem Comparison.readsBack (c : Comparison) (hcolumn : c.column.IsBare) (hsign : c.sign.IsBare)
    (hliteral : c.literal.IsBare) : ReadsBack c.tree := by
  refine ⟨.comparison c, rfl, ?_⟩
  have htext : c.tree.text = c.column.text ++ ' ' :: (c.sign.text ++ ' ' :: c.literal.text) := by
    rw [tree, text, Lexeme.column?_eq_text (Option.some_get c.names).symm,
      Lexeme.comparator?_text (Option.some_get c.compares).symm,
      hliteral.shows _ (Option.some_get c.stands).symm]
    simp
  rw [htext]
  exact Token.lexemes?_spaced hcolumn.readBack
    (Token.lexemes?_spaced hsign.readBack hliteral.readBack)

mutual

theorem Disjunction.readsBack_operands (d : Disjunction) (h : ∀ l ∈ d.yield, l.IsBare) :
    ∀ c ∈ d.operands, ReadsBack c := by
  -- A conjunction with one operand and parentheses leave no trace in the tree, so that the operands
  -- of a group, and not the parts of its derivation, are what is written.
  match d with
  | .one c =>
    rintro _ (_ | ⟨_, ⟨⟩⟩)
    exact c.readsBack h
  | .or c rest =>
    have hrest := rest.readsBack_operands fun l hl => h l (by simp [Disjunction.yield, hl])
    exact List.forall_mem_cons.2 ⟨c.readsBack fun l hl => h l (by simp [Disjunction.yield, hl]), hrest⟩

theorem Conjunction.readsBack (c : Conjunction) (h : ∀ l ∈ c.yield, l.IsBare) :
    ReadsBack c.tree := by
  rw [c.tree_eq]
  exact readsBack_grouped (by cases c <;> exact List.cons_ne_nil _ _) (c.readsBack_operands h)

theorem Conjunction.readsBack_operands (c : Conjunction) (h : ∀ l ∈ c.yield, l.IsBare) :
    ∀ d ∈ c.operands, ReadsBack d := by
  match c with
  | .one p =>
    rintro _ (_ | ⟨_, ⟨⟩⟩)
    exact p.readsBack h
  | .and p rest =>
    have hrest := rest.readsBack_operands fun l hl => h l (by simp [Conjunction.yield, hl])
    exact List.forall_mem_cons.2 ⟨p.readsBack fun l hl => h l (by simp [Conjunction.yield, hl]), hrest⟩

theorem Primary.readsBack (p : Primary) (h : ∀ l ∈ p.yield, l.IsBare) : ReadsBack p.tree := by
  match p with
  | .comparison c =>
    exact c.readsBack (h _ (by simp [Primary.yield])) (h _ (by simp [Primary.yield]))
      (h _ (by simp [Primary.yield]))
  | .group d =>
    rw [Primary.tree, d.tree_eq]
    exact readsBack_grouped (by cases d <;> exact List.cons_ne_nil _ _)
      (d.readsBack_operands fun l hl => h l (by simp [Primary.yield, hl]))

end

theorem Disjunction.readsBack (d : Disjunction) (h : ∀ l ∈ d.yield, l.IsBare) :
    ReadsBack d.tree := by
  rw [d.tree_eq]
  exact readsBack_grouped (by cases d <;> exact List.cons_ne_nil _ _) (d.readsBack_operands h)

theorem ReadsBack.ofText_text (h : ReadsBack c) : ofText c.text = .ok c := by
  obtain ⟨p, rfl, hp⟩ := h
  obtain ⟨ts, hts, hyield⟩ := Token.lexemes?_eq_some_iff.1 hp
  refine ofText_eq_ok_iff.2 ⟨ts, hts, read_eq_ok_iff.2 ⟨.one (.one p), ts, by simp, hyield, ?_, rfl⟩⟩
  exact stops_nil

/-- A condition that is read from a text without quotes is read back from what is written for it. -/
theorem ofText_text_eq_ok {t : Text} (hq : '\'' ∉ t) {c : Condition} (h : ofText t = .ok c) :
    ofText c.text = .ok c := by
  obtain ⟨ts, hts, hread⟩ := ofText_eq_ok_iff.1 h
  obtain ⟨d, us, rfl, hd, -, rfl⟩ := read_eq_ok_iff.1 hread
  rw [List.append_nil] at hts
  refine (d.readsBack ?_).ofText_text
  rw [← hd]
  exact List.forall_mem_map.2 (Token.scan_bare hq hts)

/-- A text with redundant parentheses, tight signs and small keywords. -/
theorem ofText_text_eq_ok_of_nested :
    let t := "x<1 and ((y like z or w!=-2.5))".toList
    let c : Condition := .group .and [.compare ['x'] .lt ⟨.number, ['1']⟩,
      .group .or [.compare ['y'] .like (.string ['z']),
        .compare ['w'] .ne ⟨.number, ['-', '2', '.', '5']⟩]]
    '\'' ∉ t ∧ ofText t = .ok c ∧ c.text = "(x < 1 AND (y LIKE z OR w != -2.5))".toList ∧
      ofText c.text = .ok c := by
  intro t c
  have hq : '\'' ∉ t := by decide
  have hscan : Token.scan t = .ok [⟨.identifier ['x'], 1⟩, ⟨.operator .lt, 2⟩, ⟨.number ['1'], 3⟩,
      ⟨.keyword .AND, 5⟩, ⟨.mark .opening, 9⟩, ⟨.mark .opening, 10⟩, ⟨.identifier ['y'], 11⟩,
      ⟨.keyword .LIKE, 13⟩, ⟨.identifier ['z'], 18⟩, ⟨.keyword .OR, 20⟩, ⟨.identifier ['w'], 23⟩,
      ⟨.operator .ne, 24⟩, ⟨.number ['-', '2', '.', '5'], 26⟩, ⟨.mark .closing, 30⟩,
      ⟨.mark .closing, 31⟩] := by decide +kernel
  have h : ofText t = .ok c := ofText_eq_ok_iff.2 ⟨_, hscan, rfl⟩
  exact ⟨hq, h, rfl, ofText_text_eq_ok hq h⟩

end Condition

end Tabular
