import Tabular.Proofs.Condition.Texts
import Tabular.Proofs.Statement.Names
import Tabular.Proofs.Statement.Numbers
import Tabular.Proofs.Table.Texts

/-!
# Texts in commands

Of the texts of its tokens a command is turned down with, or the statement in it is made. So a
command within one line is turned down in one line, and the statement in it is made of texts within
one line.
-/

namespace Tabular

open Text

/-! ## Tokens -/

theorem Operator.oneLine_text (o : Operator) : o.text.OneLine := by
  cases o <;> decide

theorem Mark.oneLine_text (m : Mark) : m.text.OneLine := by
  cases m <;> decide

namespace Lexeme

/-- Quoted text is a stretch of what is read, and what is wrong is told without any text. -/
abbrev ReadsQuoted (rest : Text) (x : Except CommandFault (Lexeme × Nat)) : Prop :=
  x.Gives (fun r => ∀ inner, r.1 = .string inner → inner ⊆ rest) fun e => e.texts = []

theorem readNumber_quoted (position : Nat) (whole read rest : Text) :
    ReadsQuoted whole (readNumber position read rest) := by
  unfold readNumber
  dsimp only
  split
  · rfl
  · rintro inner ⟨⟩

theorem wordLexeme_ne_string (word inner : Text) : wordLexeme word ≠ .string inner := by
  unfold wordLexeme
  split <;> rintro ⟨⟩

theorem read_quoted (position : Nat) (c : Char) (rest : Text) :
    ReadsQuoted rest (read position c rest) := by
  unfold read
  split
  · unfold readQuoted
    dsimp only
    split
    · rfl
    · rintro inner ⟨⟩
      exact List.takeWhile_subset _
  split
  · unfold readSigned
    dsimp only
    split
    · exact Except.gives_map.2 (readNumber_quoted position rest _ _)
    · rfl
  split
  · unfold readWord
    dsimp only
    split
    · exact Except.gives_map.2 (readNumber_quoted position rest _ _)
    · exact fun inner h => absurd h (wordLexeme_ne_string _ inner)
  · have hmark (m : Mark) (n : Nat) : ReadsQuoted rest (.ok (.mark m, n)) := by rintro inner ⟨⟩
    have hoperator (o : Operator) (n : Nat) : ReadsQuoted rest (.ok (.operator o, n)) := by
      rintro inner ⟨⟩
    unfold readSign
    dsimp only
    split
    · split <;> exact hoperator _ _
    · split <;> exact hoperator _ _
    · split <;> exact hoperator _ _
    · split
      · exact hoperator _ _
      · rfl
    all_goals first | exact hmark _ _ | rfl

end Lexeme

namespace Token

theorem scan_quoted (t : Text) :
    (scan t).Gives (fun ts => ∀ k ∈ ts, ∀ inner, k.lexeme = .string inner → inner ⊆ t)
      fun e => e.texts = [] := by
  refine scan_gives (P := fun l => ∀ inner, l = .string inner → inner ⊆ t)
    fun position c rest hsuffix => ?_
  refine (Lexeme.read_quoted position c rest).mono (fun r hr inner h => ?_) fun _ h => h
  exact fun d hd => hsuffix.subset (List.mem_cons_of_mem c (hr inner h hd))

/-- Every token is within one line but for quoted text. -/
theorem oneLine_or_string {t : Text} {ts : List Token} {k : Token} (h : scan t = .ok ts)
    (hk : k ∈ ts) : k.lexeme.text.OneLine ∨ ∃ inner, k.lexeme = .string inner := by
  have hscanned := scan_scanned h k hk
  cases hl : k.lexeme with
  | keyword w => exact .inl w.oneLine_text
  | identifier name =>
    rw [hl] at hscanned
    exact .inl (Name.oneLine_of_isPlain hscanned.1)
  | number n => exact .inl (oneLine_of_fitsField (isNumberText_of_scan h hk hl).fitsField)
  | string inner => exact .inr ⟨inner, rfl⟩
  | operator o => exact .inl o.oneLine_text
  | mark m => exact .inl m.oneLine_text

theorem scan_line {t : Text} (h : t.OneLine) :
    (scan t).Gives (Tell OneLine) fun e => e.texts = [] := by
  refine (scan_quoted t).of_eq_ok fun ts hts k hk => Condition.tells_of_oneLine ?_
  obtain hline | ⟨inner, hinner⟩ := oneLine_or_string hts hk
  · exact hline
  · have hsubset := (scan_quoted t).of_ok hts k hk inner hinner
    rw [hinner]
    change OneLine (['\''] ++ inner ++ ['\''])
    simpa using h.subset hsubset

end Token

namespace Statement

/-- The columns are plain words and the texts of the condition have the property. -/
def Tells (Q : Text → Prop) : Statement → Prop
  | createTable _ columns => ∀ c ∈ columns, Name.isPlain c
  | alterTable _ _ column => Name.isPlain column
  | select _ columns condition =>
    (∀ cs ∈ columns, ∀ c ∈ cs, Name.isPlain c) ∧ ∀ c ∈ condition, c.Tells Q
  | update _ assignments condition =>
    (∀ a ∈ assignments, Name.isPlain a.1) ∧ ∀ c ∈ condition, c.Tells Q
  | delete _ condition => ∀ c ∈ condition, c.Tells Q
  | join _ _ leftColumn rightColumn => Name.isPlain leftColumn ∧ Name.isPlain rightColumn
  | use _ | createDatabase _ | dropDatabase _ | dropTable _ | insert _ _ => True

namespace Reader

variable {Q : Text → Prop} {α β : Type} {P : α → Prop} {R : β → Prop}

/-- On tokens whose texts have the property `Q` the reader gives what has the property `P`, or turns
them down with texts that have `Q`. -/
def Telling (Q : Text → Prop) (P : α → Prop) (m : Reader α) : Prop :=
  ∀ ts, Token.Tell Q ts → (m.run ts).Gives (fun r => P r.1 ∧ Token.Tell Q r.2)
    fun e => ∀ t ∈ e.texts, Q t

/-- Anything may be read. -/
abbrev AnyTelling (Q : Text → Prop) (m : Reader α) : Prop := Telling Q (fun _ => True) m

theorem tells_pure {a : α} (h : P a) : Telling Q P (pure a : Reader α) := fun _ hts => ⟨h, hts⟩

theorem tells_bind {m : Reader α} {f : α → Reader β} (hm : Telling Q P m)
    (hf : ∀ a, P a → Telling Q R (f a)) : Telling Q R (m >>= f) := by
  intro ts hts
  rw [StateT.run_bind]
  exact (hm ts hts).bind fun r hr => hf r.1 hr.1 r.2 hr.2

theorem tells_then {m : Reader α} {f : α → Reader β} (hm : AnyTelling Q m)
    (hf : ∀ a, Telling Q R (f a)) : Telling Q R (m >>= f) := tells_bind hm fun a _ => hf a

theorem tells_lift {x : Except Rejection α} (h : x.Gives P fun e => ∀ t ∈ e.texts, Q t) :
    Telling Q P (liftM x : Reader α) := by
  intro ts hts
  cases x with
  | error e => exact h
  | ok a => exact ⟨h, hts⟩

theorem tells_foundIn {ts : List Token} (hts : Token.Tell Q ts) :
    ∀ t ∈ (Token.foundIn ts).texts, Q t := by
  cases ts with
  | nil => exact nofun
  | cons k ts => exact List.forall_mem_singleton.2 (hts k List.mem_cons_self).text

theorem tells_refuse {fault : Found → CommandFault}
    (h : ∀ found : Found, (∀ t ∈ found.texts, Q t) → ∀ t ∈ (fault found).texts, Q t) :
    Telling Q P (refuse fault : Reader α) := fun _ hts => h _ (tells_foundIn hts)

theorem tells_accept (l : Lexeme) : AnyTelling Q (accept l) := by
  intro ts hts
  cases ts with
  | nil => exact ⟨trivial, nofun⟩
  | cons t ts =>
    change Except.Gives _ _ (if t.lexeme = l then _ else _)
    split
    · exact ⟨trivial, (List.forall_mem_cons.1 hts).2⟩
    · exact ⟨trivial, hts⟩

theorem tells_take {f : Lexeme → Option α} {fault : Found → CommandFault}
    (hf : ∀ l a, f l = some a → l.Tells Q → P a)
    (h : ∀ found : Found, (∀ t ∈ found.texts, Q t) → ∀ t ∈ (fault found).texts, Q t) :
    Telling Q P (take f fault) := by
  intro ts hts
  cases ts with
  | nil => exact h _ nofun
  | cons t ts =>
    obtain ⟨ht, hts⟩ := List.forall_mem_cons.1 hts
    cases ha : f t.lexeme with
    | none =>
      rw [run_take_of_none ha]
      exact h _ (List.forall_mem_singleton.2 ht.text)
    | some a =>
      rw [run_take_of_some ha]
      exact ⟨hf _ a ha ht, hts⟩

theorem tells_keyword (k : Keyword) : AnyTelling Q (keyword k) :=
  tells_take (fun _ _ _ _ => trivial) fun _ h => h

theorem Telling.mono {P' : α → Prop} {m : Reader α} (h : Telling Q P m) (hP : ∀ a, P a → P' a) :
    Telling Q P' m := fun ts hts => (h ts hts).mono (fun _ hr => ⟨hP _ hr.1, hr.2⟩) fun _ he => he

theorem text_of_nameText? {l : Lexeme} {t : Text} (h : nameText? l = some t) : t = l.text := by
  cases l <;> cases h <;> rfl

theorem tells_literal : AnyTelling Q literal := tells_take (fun _ _ _ _ => trivial) fun _ h => h

theorem tells_list {item : Reader α} (h : Telling Q P item) :
    Telling Q (fun as => ∀ a ∈ as, P a) (list item) := by
  have hwithin (n : Nat) : Telling Q (fun as => ∀ a ∈ as, P a) (listWithin item n) := by
    induction n with
    | zero => exact tells_bind h fun a ha => tells_pure (List.forall_mem_singleton.2 ha)
    | succ n ih =>
      refine tells_bind h fun a ha => tells_then (tells_accept _) fun goesOn => ?_
      cases goesOn with
      | true => exact tells_bind ih fun as has => tells_pure (List.forall_mem_cons.2 ⟨ha, has⟩)
      | false => exact tells_pure (List.forall_mem_singleton.2 ha)
  exact fun ts hts => hwithin ts.length ts hts

theorem tells_alterAction : AnyTelling Q alterAction := by
  refine tells_then (tells_accept _) fun adds => ?_
  cases adds with
  | true => exact tells_pure trivial
  | false =>
    refine tells_then (tells_accept _) fun drops => ?_
    cases drops with
    | true => exact tells_pure trivial
    | false =>
      simp only [Bool.false_eq_true, if_false]
      exact tells_refuse fun _ _ => nofun

theorem tells_condition : Telling Q (fun c => ∀ d ∈ c, d.Tells Q) condition := by
  refine tells_then (tells_accept _) fun isThere => ?_
  cases isThere with
  | false => exact tells_pure nofun
  | true =>
    intro ts hts
    cases ts with
    | nil => exact nofun
    | cons t ts =>
      have hread : Telling Q (fun r : Condition × List Token => r.1.Tells Q ∧ Token.Tell Q r.2)
          (liftM ((Condition.read (t :: ts)).mapError Rejection.condition)) :=
        tells_lift (Except.gives_mapError.2 (Condition.read_gives hts))
      refine (hread (t :: ts) hts).bind fun r hr => ⟨?_, hr.1.2⟩
      rintro _ ⟨⟩
      exact hr.1.1

/-! ## Names and fixed texts -/

section Fixed

variable (hQ : ∀ t : Text, t.OneLine → Q t)
include hQ

theorem tells_mark (m : Mark) : AnyTelling Q (mark m) :=
  tells_take (fun _ _ _ _ => trivial) fun _ h => List.forall_mem_cons.2 ⟨hQ _ m.oneLine_text, h⟩

theorem validate_gives {kind : String} (hk : Text.OneLine kind.toList) {t : Text} (ht : Q t) :
    (Name.validate kind t).Gives (fun n => Name.isPlain n ∧ Q n) fun e => ∀ t ∈ e.texts, Q t := by
  unfold Name.validate
  split
  · exact List.forall_mem_singleton.2 (hQ _ hk)
  · next hp =>
    split
    · exact List.forall_mem_cons.2 ⟨hQ _ hk, List.forall_mem_singleton.2 ht⟩
    · exact ⟨by simpa using hp, ht⟩

theorem tells_name {kind : String} (hk : Text.OneLine kind.toList) :
    Telling Q (fun n => Name.isPlain n ∧ Q n) (name kind) := by
  refine tells_bind (P := Q) ?_ fun t ht => tells_lift (validate_gives hQ hk ht)
  refine tells_take (fun l t ht hl => ?_) fun found h => List.forall_mem_cons.2 ⟨hQ _ hk, h⟩
  exact text_of_nameText? ht ▸ hl.text

/-- The name of a database or table is checked once more when it is put into small letters. -/
theorem tells_lowered {kind : String} (hk : Text.OneLine kind.toList) :
    AnyTelling Q (do let n ← name kind; (Name.validate kind n).map Text.lower) := by
  refine tells_bind (tells_name hQ hk) fun n hn => tells_lift (Except.gives_map.2 ?_)
  exact (validate_gives hQ hk hn.2).mono (fun _ _ => trivial) fun _ h => h

theorem tells_database : AnyTelling Q database := tells_lowered hQ (by decide)

theorem tells_table : AnyTelling Q table := tells_lowered hQ (by decide)

theorem tells_column : Telling Q (fun c => Name.isPlain c) column :=
  (tells_name hQ (by decide)).mono fun _ h => h.1

theorem tells_newColumns : Telling Q (fun cs => ∀ c ∈ cs, Name.isPlain c) newColumns := by
  refine tells_then (tells_accept _) fun isThere => ?_
  cases isThere with
  | false => exact tells_pure nofun
  | true =>
    exact tells_bind (tells_list (tells_column hQ)) fun _ h =>
      tells_then (tells_mark hQ _) fun _ => tells_pure h

theorem tells_newValues : AnyTelling Q newValues := by
  refine tells_then (tells_mark hQ _) fun _ => tells_then (tells_accept _) fun isEmpty => ?_
  cases isEmpty with
  | true => exact tells_pure trivial
  | false =>
    exact tells_bind (tells_list tells_literal) fun _ _ => tells_then (tells_mark hQ _) fun _ =>
      tells_pure trivial

theorem tells_wantedColumns :
    Telling Q (fun columns => ∀ cs ∈ columns, ∀ c ∈ cs, Name.isPlain c) wantedColumns := by
  refine tells_then (tells_accept _) fun isStar => ?_
  cases isStar with
  | true => exact tells_pure nofun
  | false =>
    refine tells_bind (tells_list (tells_column hQ)) fun cs h => tells_pure ?_
    rintro _ ⟨⟩
    exact h

theorem tells_assignment : Telling Q (fun a : Text × Value => Name.isPlain a.1) assignment := by
  refine tells_bind (P := fun c => Name.isPlain c ∧ Q c) (tells_name hQ (by decide))
    fun c hc => tells_then (tells_accept _) fun assigns => ?_
  cases assigns with
  | true => exact tells_then tells_literal fun _ => tells_pure hc.1
  | false =>
    simp only [Bool.false_eq_true, if_false]
    exact tells_refuse fun _ _ => List.forall_mem_singleton.2 hc.2

theorem tells_body? {k : Keyword} {body : Reader Statement} (h : body? k = some body) :
    Telling Q (Tells Q) body := by
  unfold body? at h
  split at h <;> cases h
  · exact tells_then (tells_database hQ) fun _ => tells_pure trivial
  · refine tells_then (tells_accept _) fun isDatabase => ?_
    cases isDatabase with
    | true => exact tells_then (tells_database hQ) fun _ => tells_pure trivial
    | false =>
      exact tells_then (tells_keyword _) fun _ => tells_then (tells_table hQ) fun _ =>
        tells_bind (tells_newColumns hQ) fun _ h => tells_pure h
  · refine tells_then (tells_accept _) fun isDatabase => ?_
    cases isDatabase with
    | true => exact tells_then (tells_database hQ) fun _ => tells_pure trivial
    | false =>
      exact tells_then (tells_keyword _) fun _ => tells_then (tells_table hQ) fun _ =>
        tells_pure trivial
  · refine tells_then (tells_keyword _) fun _ => tells_then (tells_table hQ) fun _ =>
      tells_then tells_alterAction fun _ => tells_then (tells_accept _) fun _ =>
        tells_bind (tells_column hQ) fun _ h => tells_pure h
  · exact tells_then (tells_keyword _) fun _ => tells_then (tells_table hQ) fun _ =>
      tells_then (tells_keyword _) fun _ => tells_then (tells_newValues hQ) fun _ =>
        tells_pure trivial
  · exact tells_bind (tells_wantedColumns hQ) fun _ hcs => tells_then (tells_keyword _) fun _ =>
      tells_then (tells_table hQ) fun _ => tells_bind tells_condition fun _ hc =>
        tells_pure ⟨hcs, hc⟩
  · exact tells_then (tells_table hQ) fun _ => tells_then (tells_keyword _) fun _ =>
      tells_bind (tells_list (tells_assignment hQ)) fun _ ha =>
        tells_bind tells_condition fun _ hc => tells_pure ⟨ha, hc⟩
  · exact tells_then (tells_keyword _) fun _ => tells_then (tells_table hQ) fun _ =>
      tells_bind tells_condition fun _ hc => tells_pure hc
  · exact tells_then (tells_table hQ) fun _ => tells_then (tells_keyword _) fun _ =>
      tells_then (tells_table hQ) fun _ => tells_then (tells_keyword _) fun _ =>
        tells_bind (tells_column hQ) fun _ hl => tells_then (tells_keyword _) fun _ =>
          tells_bind (tells_column hQ) fun _ hr => tells_pure ⟨hl, hr⟩

end Fixed

end Reader

section Fixed

variable {Q : Text → Prop} (hQ : ∀ t : Text, t.OneLine → Q t)
include hQ

theorem ofTokens_gives {head : Token} {ts : List Token} (hhead : Q head.text)
    (hts : Token.Tell Q ts) : (ofTokens head ts).Gives (Tells Q) fun e => ∀ t ∈ e.texts, Q t := by
  unfold ofTokens
  split
  · split
    · exact List.forall_mem_singleton.2 hhead
    · next body hbody =>
      have hrun := Reader.tells_body? hQ hbody ts hts
      split
      · next he => exact hrun.of_error he
      · next hs => exact (hrun.of_ok hs).1
      · next t rest hs =>
        exact List.forall_mem_singleton.2 ((hrun.of_ok hs).2 t List.mem_cons_self).text
  · exact List.forall_mem_singleton.2 hhead

theorem ofText_gives {text : Text}
    (h : (Token.scan text).Gives (Token.Tell Q) fun e => e.texts = [])
    (hempty : Token.scan text = .ok [] → Q text) :
    (ofText text).Gives (Tells Q) fun e => ∀ t ∈ e.texts, Q t := by
  unfold ofText
  split
  · next e he =>
    change ∀ t ∈ e.texts, Q t
    rw [h.of_error he]
    exact nofun
  · next hnone => exact List.forall_mem_singleton.2 (hempty hnone)
  · next head ts hts =>
    obtain ⟨hhead, hts⟩ := List.forall_mem_cons.1 (h.of_ok hts)
    exact ofTokens_gives hQ hhead.text hts

end Fixed

/-- The body is a stretch of the command, and what is wrong is told without any text. -/
theorem commandBody_gives (command : Text) :
    (commandBody command).Gives (fun body => body ⊆ Text.trim command) fun e => e.texts = [] := by
  unfold commandBody
  dsimp only
  split
  · rfl
  split
  · rfl
  split
  · rfl
  · exact fun c hc => List.dropLast_subset _ (Text.mem_trimBy hc)

/-- A command that is one line but for the blanks around it is turned down in one line, or read as a
statement of texts within one line. -/
theorem ofCommand_gives {command : Text} (h : (Text.trim command).OneLine) :
    (ofCommand command).Gives (Tells Text.OneLine) fun e => ∀ t ∈ e.texts, t.OneLine := by
  have hbody := commandBody_gives command
  unfold ofCommand
  split
  · next e he =>
    change ∀ t ∈ e.texts, t.OneLine
    rw [hbody.of_error he]
    exact nofun
  · next body hok =>
    have hline := h.subset (hbody.of_ok hok)
    exact ofText_gives (fun _ h => h) (Token.scan_line hline) fun _ => hline

end Statement

end Tabular
