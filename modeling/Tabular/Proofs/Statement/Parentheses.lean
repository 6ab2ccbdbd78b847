import Tabular.Proofs.Condition.Parentheses
import Tabular.Proofs.Statement.Grammar

/-!
# Redundant parentheses in a statement

What stands before WHERE is read in the same way whatever follows, so that parentheses in a condition
that do not change its meaning leave the rest of the statement alone.
-/

namespace Tabular.Statement

/-- The same statement, up to a condition that is put in another way and means the same. -/
inductive Akin : Statement → Statement → Prop
  | refl (s : Statement) : Akin s s
  | select (t : Text) (columns : Option (List Text)) {c c' : Condition}
    (h : c.meaning = c'.meaning) : Akin (.select t columns (some c)) (.select t columns (some c'))
  | update (t : Text) (assignments : List (Text × Value)) {c c' : Condition}
    (h : c.meaning = c'.meaning) :
    Akin (.update t assignments (some c)) (.update t assignments (some c'))
  | delete (t : Text) {c c' : Condition} (h : c.meaning = c'.meaning) :
    Akin (.delete t (some c)) (.delete t (some c'))

namespace Reader

/-! ## Up to WHERE -/

section Blind

variable {α β : Type} {m : Reader α}

/-- Two runs over tokens that are the same up to `w`: one failure, or one result and the same tokens
left before `w`. -/
inductive Meets (w : Token) (us vs vs' : List Token) :
    Except Rejection (α × List Token) → Except Rejection (α × List Token) → Prop
  | error (e : Rejection) : Meets w us vs vs' (.error e) (.error e)
  | ok (a : α) {us' : List Token} (h : us' <:+ us) :
    Meets w us vs vs' (.ok (a, us' ++ w :: vs)) (.ok (a, us' ++ w :: vs'))

/-- The reader takes no WHERE, and what comes behind one does not matter to it. -/
def Blind (m : Reader α) : Prop :=
  ∀ w : Token, w.lexeme = .keyword .WHERE → ∀ us vs vs',
    Meets w us vs vs' (m.run (us ++ w :: vs)) (m.run (us ++ w :: vs'))

theorem Meets.weaken {w : Token} {us us' vs vs' : List Token}
    {x x' : Except Rejection (α × List Token)} (h : Meets w us vs vs' x x') (hus : us <:+ us') :
    Meets w us' vs vs' x x' := by
  cases h with
  | error e => exact .error e
  | ok a h => exact .ok a (h.trans hus)

theorem Meets.bind {w : Token} {us vs vs' : List Token} {m' : Reader α} {f f' : α → Reader β}
    (hm : Meets w us vs vs' (m.run (us ++ w :: vs)) (m'.run (us ++ w :: vs')))
    (hf : ∀ a us', us' <:+ us →
      Meets w us' vs vs' ((f a).run (us' ++ w :: vs)) ((f' a).run (us' ++ w :: vs'))) :
    Meets w us vs vs' ((m >>= f).run (us ++ w :: vs)) ((m' >>= f').run (us ++ w :: vs')) := by
  rw [StateT.run_bind, StateT.run_bind]
  generalize m.run (us ++ w :: vs) = x at hm ⊢
  generalize m'.run (us ++ w :: vs') = x' at hm ⊢
  cases hm with
  | error e => exact .error e
  | ok a h => exact (hf a _ h).weaken h

theorem blind_pure (a : α) : Blind (pure a : Reader α) := fun _ _ _ _ _ => .ok a List.suffix_rfl

theorem blind_lift (x : Except Rejection α) : Blind (liftM x : Reader α) := by
  cases x with
  | error e => exact fun _ _ _ _ _ => .error e
  | ok a => exact blind_pure a

theorem blind_bind {f : α → Reader β} (hm : Blind m) (hf : ∀ a, Blind (f a)) : Blind (m >>= f) :=
  fun w hw us vs vs' => (hm w hw us vs vs').bind fun a us' _ => hf a w hw us' vs vs'

/-- A reader that takes one token, which cannot be WHERE. -/
theorem blind_of_head {g : Token → Except Rejection α}
    (h : ∀ t ts, m.run (t :: ts) = (g t).map fun a => (a, ts))
    (hg : ∀ w, w.lexeme = .keyword .WHERE → ∃ e, g w = .error e) : Blind m := by
  intro w hw us vs vs'
  cases us with
  | nil =>
    obtain ⟨e, he⟩ := hg w hw
    rw [List.nil_append, List.nil_append, h, h, he]
    exact .error e
  | cons u us =>
    rw [List.cons_append, List.cons_append, h, h]
    cases g u with
    | error e => exact .error e
    | ok a => exact .ok a (List.suffix_cons u us)

/-- What is made of the token at the front. -/
def front (f : Lexeme → Option α) (fault : Found → CommandFault) (t : Token) : Except Rejection α :=
  match f t.lexeme with
  | some a => .ok a
  | none => .error (.command (fault t.found))

theorem run_take (f : Lexeme → Option α) (fault : Found → CommandFault) (t : Token)
    (ts : List Token) : (take f fault).run (t :: ts) = (front f fault t).map fun a => (a, ts) := by
  rw [front]
  cases h : f t.lexeme with
  | some a => exact run_take_of_some h ts
  | none => exact run_take_of_none h ts

theorem blind_take {f : Lexeme → Option α} {fault : Found → CommandFault}
    (hf : f (.keyword .WHERE) = none) : Blind (take f fault) :=
  blind_of_head (run_take f fault) fun w hw => ⟨.command (fault w.found), by rw [front, hw, hf]⟩

theorem blind_keyword {k : Keyword} (hk : k ≠ .WHERE) : Blind (keyword k) :=
  blind_take (if_neg fun h => hk (Lexeme.keyword.inj h).symm)

theorem blind_mark (m : Mark) : Blind (mark m) := blind_take rfl

theorem blind_literal : Blind literal := blind_take rfl

theorem blind_refuse (fault : Found → CommandFault) : Blind (refuse fault : Reader α) := by
  intro w hw us vs vs'
  cases us <;> exact .error _

theorem blind_accept {l : Lexeme} (hl : l ≠ .keyword .WHERE) : Blind (accept l) := by
  intro w hw us vs vs'
  cases us with
  | nil =>
    have hne : w.lexeme ≠ l := fun h => hl (h.symm.trans hw)
    have hrun : ∀ ts, (accept l).run (w :: ts) = .ok (false, [] ++ w :: ts) := fun ts => if_neg hne
    rw [List.nil_append, List.nil_append, hrun, hrun]
    exact .ok false List.suffix_rfl
  | cons u us =>
    by_cases hu : u.lexeme = l
    · have hrun : ∀ ts, (accept l).run (u :: ts) = .ok (true, ts) := fun ts => if_pos hu
      rw [List.cons_append, List.cons_append, hrun, hrun]
      exact .ok true (List.suffix_cons u us)
    · have hrun : ∀ ts, (accept l).run (u :: ts) = .ok (false, u :: ts) := fun ts => if_neg hu
      rw [List.cons_append, List.cons_append, hrun, hrun]
      exact .ok false List.suffix_rfl

/-- A keyword may be taken for a name, but it is no valid one. -/
theorem blind_name (kind : String) : Blind (name kind) := by
  have hrun : ∀ t ts, (name kind).run (t :: ts) =
      (front nameText? (.expectedName kind) t >>= Name.validate kind).map fun n => (n, ts) := by
    intro t ts
    rw [name, StateT.run_bind, run_take]
    cases front nameText? (.expectedName kind) t with
    | error e => rfl
    | ok n =>
      change (liftM (Name.validate kind n) : Reader Text).run ts = (Name.validate kind n).map _
      cases Name.validate kind n <;> rfl
  refine blind_of_head hrun fun w hw => ⟨.keywordName kind Keyword.WHERE.text, ?_⟩
  rw [front, hw]
  rfl

theorem blind_database : Blind database := blind_bind (blind_name _) fun _ => blind_lift _

theorem blind_table : Blind table := blind_bind (blind_name _) fun _ => blind_lift _

theorem blind_column : Blind column := blind_name _

/-- What is read behind the first item of a list. -/
def listRest (item : Reader α) (a : α) : Nat → Reader (List α)
  | 0 => pure [a]
  | n + 1 => do if ← accept (.mark .comma) then return a :: (← listWithin item n) else return [a]

theorem listWithin_eq (item : Reader α) (n : Nat) :
    listWithin item n = item >>= fun a => listRest item a n := by
  cases n <;> rfl

/-- A list ends before a token that is no comma. -/
theorem run_listRest {item : Reader α} {a : α} {t : Token} (ht : t.lexeme ≠ .mark .comma) (n : Nat)
    (ts : List Token) : (listRest item a n).run (t :: ts) = .ok ([a], t :: ts) := by
  cases n with
  | zero => rfl
  | succ n =>
    have hrun : (accept (.mark .comma)).run (t :: ts) = .ok (false, t :: ts) := if_neg ht
    rw [listRest, StateT.run_bind, hrun]
    rfl

theorem run_listRest_comma {item : Reader α} {a : α} {t : Token} (ht : t.lexeme = .mark .comma)
    (n : Nat) (ts : List Token) : (listRest item a (n + 1)).run (t :: ts) =
      (listWithin item n >>= fun as => pure (a :: as)).run ts := by
  have hrun : (accept (.mark .comma)).run (t :: ts) = .ok (true, ts) := if_pos ht
  rw [listRest, StateT.run_bind, hrun]
  rfl

/-- The bound on the number of items does not matter if there are no more tokens before WHERE. -/
theorem meets_listWithin {item : Reader α} (hm : Blind item) {w : Token}
    (hw : w.lexeme = .keyword .WHERE) (vs vs' : List Token) (n : Nat) {n' : Nat}
    {us : List Token} (hn : us.length ≤ n) (hn' : us.length ≤ n') :
    Meets w us vs vs' ((listWithin item n).run (us ++ w :: vs))
      ((listWithin item n').run (us ++ w :: vs')) := by
  have hcomma : w.lexeme ≠ .mark .comma := by
    rw [hw]
    nofun
  -- On one bound: each comma takes a token before WHERE, so that the other bound is not met either.
  induction n generalizing us n' with
  | zero =>
    cases List.eq_nil_of_length_eq_zero (Nat.le_zero.1 hn)
    rw [listWithin_eq, listWithin_eq]
    refine (hm w hw [] vs vs').bind fun a us' hus => ?_
    cases List.suffix_nil.1 hus
    rw [List.nil_append, List.nil_append, run_listRest hcomma, run_listRest hcomma]
    exact .ok [a] List.suffix_rfl
  | succ n ih =>
    rw [listWithin_eq, listWithin_eq]
    refine (hm w hw us vs vs').bind fun a us' hus => ?_
    cases us' with
    | nil =>
      rw [List.nil_append, List.nil_append, run_listRest hcomma, run_listRest hcomma]
      exact .ok [a] List.suffix_rfl
    | cons u us' =>
      have hlength : us'.length + 1 ≤ us.length := hus.length_le
      obtain ⟨k, rfl⟩ : ∃ k, n' = k + 1 := ⟨n' - 1, by omega⟩
      rw [List.cons_append, List.cons_append]
      by_cases hu : u.lexeme = .mark .comma
      · have hrest := @ih k us' (by omega) (by omega)
        rw [run_listRest_comma hu, run_listRest_comma hu]
        refine (hrest.bind fun as us'' _ => ?_).weaken (List.suffix_cons u us')
        exact blind_pure (a :: as) w hw us'' vs vs'
      · rw [run_listRest hu, run_listRest hu]
        exact .ok [a] (List.suffix_refl (u :: us'))

theorem blind_list {item : Reader α} (hm : Blind item) : Blind (list item) := by
  intro w hw us vs vs'
  refine meets_listWithin hm hw vs vs' _ ?_ ?_ <;>
    · rw [List.length_append]
      omega

theorem blind_ite {p : Prop} [Decidable p] {m' : Reader α} (hm : Blind m) (hm' : Blind m') :
    Blind (if p then m else m') := by
  split
  · exact hm
  · exact hm'

theorem blind_newColumns : Blind newColumns :=
  blind_bind (blind_accept nofun) fun _ => blind_ite
    (blind_bind (blind_list blind_column) fun _ => blind_bind (blind_mark _) fun _ => blind_pure _)
    (blind_pure _)

theorem blind_newValues : Blind newValues :=
  blind_bind (blind_mark _) fun _ => blind_bind (blind_accept nofun) fun _ => blind_ite
    (blind_pure _)
    (blind_bind (blind_list blind_literal) fun _ => blind_bind (blind_mark _) fun _ => blind_pure _)

theorem blind_wantedColumns : Blind wantedColumns :=
  blind_bind (blind_accept nofun) fun _ => blind_ite (blind_pure _)
    (blind_bind (blind_list blind_column) fun _ => blind_pure _)

theorem blind_assignment : Blind assignment :=
  blind_bind blind_column fun _ => blind_bind (blind_accept nofun) fun _ => blind_ite
    (blind_bind blind_literal fun _ => blind_pure _) (blind_refuse _)

theorem blind_alterAction : Blind alterAction :=
  blind_bind (blind_accept nofun) fun _ => blind_ite (blind_pure _)
    (blind_bind (blind_accept nofun) fun _ => blind_ite (blind_pure _) (blind_refuse _))

theorem blind_create : Blind create :=
  blind_bind (blind_accept nofun) fun _ => blind_ite
    (blind_bind blind_database fun _ => blind_pure _)
    (blind_bind (blind_keyword nofun) fun _ => blind_bind blind_table fun _ =>
      blind_bind blind_newColumns fun _ => blind_pure _)

theorem blind_drop : Blind drop :=
  blind_bind (blind_accept nofun) fun _ => blind_ite
    (blind_bind blind_database fun _ => blind_pure _)
    (blind_bind (blind_keyword nofun) fun _ => blind_bind blind_table fun _ => blind_pure _)

theorem blind_alter : Blind alter :=
  blind_bind (blind_keyword nofun) fun _ => blind_bind blind_table fun _ =>
    blind_bind blind_alterAction fun _ => blind_bind (blind_accept nofun) fun _ =>
      blind_bind blind_column fun _ => blind_pure _

theorem blind_insert : Blind insert :=
  blind_bind (blind_keyword nofun) fun _ => blind_bind blind_table fun _ =>
    blind_bind (blind_keyword nofun) fun _ => blind_bind blind_newValues fun _ => blind_pure _

theorem blind_join : Blind join :=
  blind_bind blind_table fun _ => blind_bind (blind_keyword nofun) fun _ =>
    blind_bind blind_table fun _ => blind_bind (blind_keyword nofun) fun _ =>
      blind_bind blind_column fun _ => blind_bind (blind_keyword nofun) fun _ =>
        blind_bind blind_column fun _ => blind_pure _

end Blind

/-! ## From WHERE on -/

section Agrees

/-- One failure, or statements that are akin with the same lexeme, if any, behind them. -/
inductive Agree :
    Except Rejection (Statement × List Token) → Except Rejection (Statement × List Token) → Prop
  | error (e : Rejection) : Agree (.error e) (.error e)
  | ok {s s' : Statement} {ts ts' : List Token} (h : Akin s s')
    (hts : ts.head?.map Token.lexeme = ts'.head?.map Token.lexeme) : Agree (.ok (s, ts)) (.ok (s', ts'))

/-- The reader comes to the same with two conditions behind the first WHERE. -/
def Agrees (w : Token) (vs vs' : List Token) (m : Reader Statement) : Prop :=
  ∀ us, (∀ u ∈ us, u.lexeme ≠ .keyword .WHERE) →
    Agree (m.run (us ++ w :: vs)) (m.run (us ++ w :: vs'))

variable {w : Token} {vs vs' : List Token}

theorem Meets.agree {us : List Token} {x x' : Except Rejection (Statement × List Token)}
    (h : Meets w us vs vs' x x') : Agree x x' := by
  cases h with
  | error e => exact .error e
  | @ok s us' h => exact .ok (.refl s) (by cases us' <;> rfl)

variable (hw : w.lexeme = .keyword .WHERE)
include hw

theorem agrees_of_blind {m : Reader Statement} (hm : Blind m) : Agrees w vs vs' m :=
  fun us _ => (hm w hw us vs vs').agree

theorem agrees_bind {α : Type} {m : Reader α} {f : α → Reader Statement} (hm : Blind m)
    (hf : ∀ a, Agrees w vs vs' (f a)) : Agrees w vs vs' (m >>= f) := by
  intro us hus
  rw [StateT.run_bind, StateT.run_bind]
  have h := hm w hw us vs vs'
  generalize m.run (us ++ w :: vs) = x at h ⊢
  generalize m.run (us ++ w :: vs') = x' at h ⊢
  cases h with
  | error e => exact .error e
  | ok a h => exact hf a _ fun u hu => hus u (h.subset hu)

theorem run_condition {ts : List Token} (hne : ts ≠ []) : condition.run (w :: ts) =
    ((Condition.read ts).mapError Rejection.condition).map fun r => (some r.1, r.2) := by
  have hrun : (accept (.keyword .WHERE)).run (w :: ts) = .ok (true, ts) := if_pos hw
  obtain ⟨t, ts, rfl⟩ := List.exists_cons_of_ne_nil hne
  rw [condition, StateT.run_bind, hrun]
  exact run_liftRead (Condition.read (t :: ts)) (t :: ts)

omit hw in
theorem run_condition_left {t : Token} (ht : t.lexeme ≠ .keyword .WHERE) (ts : List Token) :
    condition.run (t :: ts) = .ok (none, t :: ts) := by
  have hrun : (accept (.keyword .WHERE)).run (t :: ts) = .ok (false, t :: ts) := if_neg ht
  rw [condition, StateT.run_bind, hrun]
  rfl

variable (htold : Condition.told (Condition.read vs) = Condition.told (Condition.read vs'))
  (hne : vs ≠ []) (hne' : vs' ≠ [])
include htold hne hne'

theorem agrees_condition {g : Option Condition → Statement}
    (hg : ∀ c c' : Condition, c.meaning = c'.meaning → Akin (g (some c)) (g (some c'))) :
    Agrees w vs vs' (condition >>= fun c => pure (g c)) := by
  intro us hus
  rw [StateT.run_bind, StateT.run_bind]
  cases us with
  | nil =>
    rw [List.nil_append, List.nil_append, run_condition hw hne, run_condition hw hne']
    obtain ⟨fault, h, h'⟩ | ⟨c, c', ts, ts', h, h', hc, hts⟩ := Condition.told_eq htold
    · rw [h, h']
      exact .error _
    · rw [h, h']
      exact .ok (hg c c' hc) hts
  | cons u us =>
    have hu := hus u List.mem_cons_self
    rw [List.cons_append, List.cons_append, run_condition_left hu, run_condition_left hu]
    exact .ok (.refl _) rfl

theorem agrees_select : Agrees w vs vs' select :=
  agrees_bind hw blind_wantedColumns fun columns => agrees_bind hw (blind_keyword nofun) fun _ =>
    agrees_bind hw blind_table fun t => agrees_condition hw htold hne hne' fun _ _ h =>
      .select t columns h

theorem agrees_update : Agrees w vs vs' update :=
  agrees_bind hw blind_table fun t => agrees_bind hw (blind_keyword nofun) fun _ =>
    agrees_bind hw (blind_list blind_assignment) fun assignments =>
      agrees_condition hw htold hne hne' fun _ _ h => .update t assignments h

theorem agrees_delete : Agrees w vs vs' delete :=
  agrees_bind hw (blind_keyword nofun) fun _ => agrees_bind hw blind_table fun t =>
    agrees_condition hw htold hne hne' fun _ _ h => .delete t h

theorem agrees_body {k : Keyword} {body : Reader Statement} (hk : body? k = some body) :
    Agrees w vs vs' body := by
  cases k <;> cases hk
  case USE => exact agrees_of_blind hw (blind_bind blind_database fun _ => blind_pure _)
  case CREATE => exact agrees_of_blind hw blind_create
  case DROP => exact agrees_of_blind hw blind_drop
  case ALTER => exact agrees_of_blind hw blind_alter
  case INSERT => exact agrees_of_blind hw blind_insert
  case SELECT => exact agrees_select hw htold hne hne'
  case UPDATE => exact agrees_update hw htold hne hne'
  case DELETE => exact agrees_delete hw htold hne hne'
  case JOIN => exact agrees_of_blind hw blind_join

end Agrees

end Reader

/-! ## Commands -/

/-- One fault, or statements that are akin; or the same token too many, in another place. -/
inductive Reread : Except Rejection Statement → Except Rejection Statement → Prop
  | error (e : Rejection) : Reread (.error e) (.error e)
  | ok {s s' : Statement} (h : Akin s s') : Reread (.ok s) (.ok s')
  | trailing (t : Text) (p p' : Nat) : Reread (.error (.command (.expectedEnd (.token t p))))
    (.error (.command (.expectedEnd (.token t p'))))

variable {w : Token} {us vs vs' : List Token}

/-- Texts whose tokens are the same up to the first WHERE, if the same is told of the rest. -/
theorem reread_of_scan (hw : w.lexeme = .keyword .WHERE)
    (hus : ∀ u ∈ us, u.lexeme ≠ .keyword .WHERE)
    (htold : Condition.told (Condition.read vs) = Condition.told (Condition.read vs'))
    (hne : vs ≠ []) (hne' : vs' ≠ []) {t t' : Text} (ht : Token.scan t = .ok (us ++ w :: vs))
    (ht' : Token.scan t' = .ok (us ++ w :: vs')) : Reread (ofText t) (ofText t') := by
  rw [ofText, ofText, ht, ht']
  cases us with
  | nil =>
    dsimp only [List.nil_append]
    rw [ofTokens, ofTokens, hw]
    exact .error _
  | cons u us =>
    dsimp only [List.cons_append]
    rw [ofTokens, ofTokens]
    cases hu : u.lexeme with
    | keyword k =>
      dsimp only
      cases hk : Reader.body? k with
      | none => exact .error _
      | some body =>
        dsimp only
        have hagree := Reader.agrees_body hw htold hne hne' hk us fun u hu =>
          hus u (List.mem_cons_of_mem _ hu)
        generalize body.run (us ++ w :: vs) = x at hagree ⊢
        generalize body.run (us ++ w :: vs') = x' at hagree ⊢
        cases hagree with
        | error e => exact .error e
        | @ok s s' ts ts' h hts =>
          cases ts with
          | nil =>
            cases ts' with
            | nil => exact .ok h
            | cons t' ts' => cases hts
          | cons t ts =>
            cases ts' with
            | nil => cases hts
            | cons t' ts' =>
              have htext : t.text = t'.text := congrArg Lexeme.text (Option.some.inj hts)
              dsimp only
              rw [Token.found, Token.found, htext]
              exact .trailing _ _ _
    | _ => exact .error _

/-- The second command is the first one with redundant parentheses between the tokens behind its
first WHERE. -/
inductive Parenthesized : Text → Text → Prop
  | intro {c c' before mid after : Text} {us ks vs ws : List Token} {w : Token}
    (body : commandBody c = .ok (before ++ mid ++ after))
    (body' : commandBody c' = .ok (before ++ (['('] ++ mid ++ [')']) ++ after))
    (cut : Token.Cut before mid after (us ++ w :: ks) vs ws) (hw : w.lexeme = .keyword .WHERE)
    (hus : ∀ u ∈ us, u.lexeme ≠ .keyword .WHERE)
    (redundant : Condition.Redundant (ks.map Token.lexeme) (vs.map Token.lexeme)
      (ws.map Token.lexeme)) : Parenthesized c c'

theorem Parenthesized.reread {c c' : Text} (h : Parenthesized c c') :
    Reread (ofCommand c) (ofCommand c') := by
  obtain @⟨before, mid, after, us, ks, vs, ws, w, body, body', cut, hw, hus, redundant⟩ := h
  obtain ⟨o, e, vs', ws', hscan, ho, he, hvs, hws⟩ := cut.exists_scan
  have htokens (ts : List Token) : us ++ w :: ks ++ ts = us ++ w :: (ks ++ ts) := by simp
  have hne : vs ≠ [] := fun h => redundant.ne_nil (List.map_eq_nil_iff.2 h)
  rw [ofCommand, ofCommand, body, body']
  refine reread_of_scan hw hus (Condition.told_read_parenthesized ho he hvs hws redundant).symm
    ?_ ?_ (cut.whole.trans (congrArg Except.ok (htokens _)))
    (hscan.trans (congrArg Except.ok (htokens _)))
  · simp [hne]
  · simp

end Tabular.Statement
