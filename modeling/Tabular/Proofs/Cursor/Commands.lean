import Tabular.Proofs.Cursor.Conditions
import Tabular.Proofs.Statement.Grammar
import Tabular.Proofs.Token.Quoted

/-!
# Commands read by a cursor

Every walk that reads a part of a statement follows the reader of that part, and the entries of a
text are its tokens with the end behind them. So the statement and the condition in a text are the
same whether they are read by a cursor or off the front of the tokens that are left.
-/

namespace Tabular.Cursor

open Statement

/-! ## Parts of statements -/

section Parts

variable {α : Type} {w w' : Walk α} {m m' : Reader α} {test : Entry → Bool} {l : Lexeme}

theorem follows_expectKeyword (k : Keyword) : Follows (expectKeyword k) (Reader.keyword k) :=
  follows_expect (testsFor_keyword k)

theorem follows_expectMark (m : Mark) : Follows (expectMark m) (Reader.mark m) :=
  follows_expect (testsFor_mark m)

theorem follows_name (kind : String) : Follows (name kind) (Reader.name kind) :=
  follows_bind (follows_take (fun _ => nameText?_ofToken) fun _ => rfl) fun _ => follows_ofResult _

theorem follows_database : Follows database Reader.database :=
  follows_bind (follows_name _) fun _ => follows_ofResult _

theorem follows_table : Follows table Reader.table :=
  follows_bind (follows_name _) fun _ => follows_ofResult _

theorem follows_column : Follows column Reader.column := follows_name _

theorem follows_literal : Follows literal Reader.literal :=
  follows_take (fun _ => literal?_ofToken) fun _ => rfl

/-- A look ahead, and a step behind it that is sure. -/
theorem follows_behind (h : TestsFor test l) (hw : Follows w m) (hw' : Follows w' m') :
    Follows (do
        if test (← current) then
          let _ ← advance
          w
        else w')
      (do if ← Reader.accept l then m else m') := by
  intro p ts
  change Gives p _ ts ((Reader.accept l).run ts >>= _)
  obtain ⟨x, us, rfl, hx⟩ | hne := begins_or l ts
  · have hpass : test (front p (x :: us)) := h.pass hx
    rw [Reader.run_accept_of_eq hx]
    refine gives_current.bind_ok ?_
    rw [if_pos hpass]
    exact gives_advance.bind_ok (hw p us)
  · rw [Reader.run_accept_of_ne hne]
    refine gives_current.bind_ok ?_
    rw [if_neg (by simp [h.fail hne])]
    exact hw' p ts

theorem follows_assignment : Follows assignment Reader.assignment :=
  follows_bind follows_column fun _ => follows_behind (testsFor_operator .assign)
    (follows_bind follows_literal fun _ => follows_pure _) (follows_reject _)

theorem follows_columns : Follows (items column) (Reader.list Reader.column) :=
  follows_items follows_column fun _ => keeps_column

theorem follows_newColumns : Follows newColumns Reader.newColumns :=
  follows_bind (follows_accept (testsFor_mark _)) fun _ => follows_ite
    (follows_bind follows_columns fun _ => follows_bind (follows_expectMark _) fun _ =>
      follows_pure _)
    (follows_pure _)

theorem follows_newValues : Follows newValues Reader.newValues :=
  follows_bind (follows_expectMark _) fun _ =>
    follows_bind (follows_accept (testsFor_mark _)) fun _ => follows_ite (follows_pure _)
      (follows_bind (follows_items follows_literal fun _ => keeps_literal) fun _ =>
        follows_bind (follows_expectMark _) fun _ => follows_pure _)

theorem follows_wantedColumns : Follows wantedColumns Reader.wantedColumns :=
  follows_bind (follows_accept (testsFor_mark _)) fun _ => follows_ite (follows_pure _)
    (follows_bind follows_columns fun _ => follows_pure _)

theorem follows_alterAction : Follows alterAction Reader.alterAction :=
  follows_bind (follows_accept (testsFor_keyword _)) fun _ => follows_ite (follows_pure _)
    (follows_bind (follows_accept (testsFor_keyword _)) fun _ =>
      follows_ite (follows_pure _) (follows_reject _))

theorem gives_atEnd {p : Nat} {ts : List Token} : Gives p atEnd ts (.ok (ts.isEmpty, ts)) := by
  have hstop : (front p ts).isStop = ts.isEmpty := by
    cases ts with
    | nil => rfl
    | cons x us => exact isStop_ofToken
  rw [← hstop]
  exact gives_current.bind_ok (gives_pure _)

theorem follows_condition : Follows condition Reader.condition := by
  refine follows_bind (follows_accept (testsFor_keyword _)) fun _ => follows_ite ?_ (follows_pure _)
  intro p ts
  cases ts with
  | nil =>
    refine gives_atEnd.bind_ok ?_
    rw [if_pos List.isEmpty_nil]
    exact gives_reject _
  | cons x us =>
    have hgives := gives_disjunction p (x :: us)
    refine gives_atEnd.bind_ok ?_
    rw [if_neg (by simp)]
    refine (congrArg (Gives p _ _) (Reader.run_liftRead _ (x :: us))).mpr ?_
    cases hr : Condition.read (x :: us) with
    | error e =>
      rw [hr] at hgives
      exact hgives.bind_error
    | ok r =>
      rw [hr] at hgives
      exact hgives.bind_ok (gives_pure _)

end Parts

/-! ## Statements -/

theorem follows_use : Follows use Reader.use :=
  follows_bind follows_database fun _ => follows_pure _

theorem follows_create : Follows create Reader.create :=
  follows_bind (follows_accept (testsFor_keyword _)) fun _ => follows_ite
    (follows_bind follows_database fun _ => follows_pure _)
    (follows_bind (follows_expectKeyword _) fun _ => follows_bind follows_table fun _ =>
      follows_bind follows_newColumns fun _ => follows_pure _)

theorem follows_drop : Follows drop Reader.drop :=
  follows_bind (follows_accept (testsFor_keyword _)) fun _ => follows_ite
    (follows_bind follows_database fun _ => follows_pure _)
    (follows_bind (follows_expectKeyword _) fun _ => follows_bind follows_table fun _ =>
      follows_pure _)

theorem follows_alter : Follows alter Reader.alter :=
  follows_bind (follows_expectKeyword _) fun _ => follows_bind follows_table fun _ =>
    follows_bind follows_alterAction fun _ =>
      follows_bind (follows_accept (testsFor_keyword _)) fun _ =>
        follows_bind follows_column fun _ => follows_pure _

theorem follows_insert : Follows insert Reader.insert :=
  follows_bind (follows_expectKeyword _) fun _ => follows_bind follows_table fun _ =>
    follows_bind (follows_expectKeyword _) fun _ => follows_bind follows_newValues fun _ =>
      follows_pure _

theorem follows_select : Follows select Reader.select :=
  follows_bind follows_wantedColumns fun _ => follows_bind (follows_expectKeyword _) fun _ =>
    follows_bind follows_table fun _ => follows_bind follows_condition fun _ => follows_pure _

theorem follows_update : Follows update Reader.update :=
  follows_bind follows_table fun _ => follows_bind (follows_expectKeyword _) fun _ =>
    follows_bind (follows_items follows_assignment keeps_assignment) fun _ =>
      follows_bind follows_condition fun _ => follows_pure _

theorem follows_delete : Follows delete Reader.delete :=
  follows_bind (follows_expectKeyword _) fun _ => follows_bind follows_table fun _ =>
    follows_bind follows_condition fun _ => follows_pure _

theorem follows_join : Follows join Reader.join :=
  follows_bind follows_table fun _ => follows_bind (follows_expectKeyword _) fun _ =>
    follows_bind follows_table fun _ => follows_bind (follows_expectKeyword _) fun _ =>
      follows_bind follows_column fun _ => follows_bind (follows_expectKeyword _) fun _ =>
        follows_bind follows_column fun _ => follows_pure _

/-- There are walks and readers for the same keywords. -/
theorem follows_body? (k : Keyword) : (body? k = none ∧ Reader.body? k = none) ∨
    ∃ w m, body? k = some w ∧ Reader.body? k = some m ∧ Follows w m := by
  cases k with
  | USE => exact .inr ⟨_, _, rfl, rfl, follows_use⟩
  | CREATE => exact .inr ⟨_, _, rfl, rfl, follows_create⟩
  | DROP => exact .inr ⟨_, _, rfl, rfl, follows_drop⟩
  | ALTER => exact .inr ⟨_, _, rfl, rfl, follows_alter⟩
  | INSERT => exact .inr ⟨_, _, rfl, rfl, follows_insert⟩
  | SELECT => exact .inr ⟨_, _, rfl, rfl, follows_select⟩
  | UPDATE => exact .inr ⟨_, _, rfl, rfl, follows_update⟩
  | DELETE => exact .inr ⟨_, _, rfl, rfl, follows_delete⟩
  | JOIN => exact .inr ⟨_, _, rfl, rfl, follows_join⟩
  | _ => exact .inl ⟨rfl, rfl⟩

theorem bodyOf?_text (k : Keyword) : bodyOf? k.text = body? k := by cases k <;> rfl

section Whole

variable {p : Nat} {head : Token} {ts : List Token} {whole : Text}

theorem gives_expectEnd_nil : Gives p expectEnd [] (.ok ((), [])) := by
  refine gives_atEnd.bind_ok ?_
  rw [if_pos List.isEmpty_nil]
  exact gives_pure ()

theorem gives_expectEnd_cons :
    Gives p expectEnd (head :: ts) (.error (.command (.expectedEnd head.found))) := by
  refine gives_atEnd.bind_ok ?_
  rw [if_neg (by simp)]
  exact follows_refuse .expectedEnd p (head :: ts)

/-- What follows the keyword makes up all tokens that are left. -/
theorem gives_whole {w : Walk Statement} {m : Reader Statement} (h : Follows w m) :
    Gives p (do
        let s ← w
        expectEnd
        return s) ts
      ((match m.run ts with
        | .error e => Except.error e
        | .ok (s, []) => .ok s
        | .ok (_, x :: _) => .error (.command (.expectedEnd x.found))).map fun s => (s, [])) := by
  have hgives := h p ts
  cases hr : m.run ts with
  | error e =>
    rw [hr] at hgives
    exact hgives.bind_error
  | ok r =>
    obtain ⟨s, rest⟩ := r
    rw [hr] at hgives
    cases rest with
    | nil => exact hgives.bind_ok (gives_expectEnd_nil.bind_ok (gives_pure s))
    | cons x us => exact hgives.bind_ok gives_expectEnd_cons.bind_error

theorem gives_statement (h : head.text ≠ []) : Gives p (statement whole) (head :: ts)
    ((ofTokens head ts).map fun s => (s, [])) := by
  refine gives_current.bind_ok ?_
  cases hl : head.lexeme with
  | keyword k =>
    have hkind : (front p (head :: ts)).kind = .keyword := by
      simp [front, Entry.ofToken, kindOf, hl]
    have hbody : bodyOf? (front p (head :: ts)).text = body? k := by
      rw [← bodyOf?_text]
      simp [front, Entry.ofToken, Token.text, Lexeme.text, hl]
    rw [if_pos hkind, hbody]
    obtain ⟨hw, hm⟩ | ⟨w, m, hw, hm, hfollows⟩ := follows_body? k
    · simp only [hw, ofTokens, hl, hm]
      exact gives_reject _
    · simp only [hw, ofTokens, hl, hm]
      refine gives_advance.bind_ok ?_
      exact gives_whole hfollows
  | _ =>
    have hkind : (front p (head :: ts)).kind ≠ .keyword := by
      simp [front, Entry.ofToken, kindOf, hl]
    have htext : (front p (head :: ts)).text.isEmpty = false := by
      simpa [front, Entry.ofToken] using h
    rw [if_neg hkind]
    simp only [htext, ofTokens, hl]
    exact gives_reject _

/-- No tokens are no statement. -/
theorem gives_statement_nil :
    Gives p (statement whole) [] (.error (.command (.unknown whole))) := by
  refine gives_current.bind_ok ?_
  exact gives_reject _

/-- A condition makes up all tokens. -/
theorem gives_wholeCondition : Gives p wholeCondition ts
    ((match Condition.read ts with
      | .ok (c, []) => Except.ok c
      | .ok (_, x :: _) => .error (Rejection.condition (.trailing x.text))
      | .error fault => .error (.condition fault)).map fun c => (c, [])) := by
  have hgives := gives_disjunction p ts
  cases hr : Condition.read ts with
  | error e =>
    rw [hr] at hgives
    exact hgives.bind_error
  | ok r =>
    obtain ⟨c, rest⟩ := r
    rw [hr] at hgives
    refine hgives.bind_ok ?_
    cases rest with
    | nil =>
      refine gives_atEnd.bind_ok ?_
      rw [if_pos List.isEmpty_nil]
      exact gives_pure c
    | cons x us =>
      refine gives_atEnd.bind_ok ?_
      rw [if_neg (by simp)]
      exact gives_current.bind_ok (gives_reject _)

end Whole

/-! ## Texts -/

section Texts

variable {position : Nat} {c : Char} {rest t : Text}

theorem next_blank (h : Text.isBlank c) : next position (c :: rest) = next (position + 1) rest := by
  rw [next, if_pos h]

theorem entriesFrom_blank (h : Text.isBlank c) (n : Nat) :
    entriesFrom n position (c :: rest) = entriesFrom n (position + 1) rest := by
  cases n with
  | zero => rfl
  | succ n => rw [entriesFrom, entriesFrom, next_blank h]

/-- The entries of a text are its tokens with the end behind them, where the text ends. -/
theorem entriesFrom_eq (n position : Nat) (t : Text) (h : t.length < n) : entriesFrom n position t =
    some ((Token.scanFrom position t).map (laidOut (position + t.length))) := by
  induction hl : t.length using Nat.strongRecOn generalizing n position t with
  | ind l ih =>
    subst hl
    obtain ⟨n, rfl⟩ := Nat.exists_eq_succ_of_ne_zero (Nat.ne_zero_of_lt h)
    cases t with
    | nil =>
      rw [entriesFrom, next, Token.scanFrom_nil]
      rfl
    | cons c rest =>
      rw [List.length_cons] at h
      by_cases hblank : Text.isBlank c
      · rw [entriesFrom_blank hblank, Token.scanFrom_blank hblank,
          ih rest.length (Nat.lt_succ_self _) _ _ rest (Nat.lt_of_succ_lt h) rfl,
          List.length_cons, Nat.add_right_comm, Nat.add_assoc]
      · rw [entriesFrom, next, if_neg hblank, Token.scanFrom, if_neg hblank]
        cases hread : Lexeme.read position c rest with
        | error e => rfl
        | ok r =>
          obtain ⟨l, m⟩ := r
          have hm : m ≤ rest.length := (Lexeme.read_endsIn rest).of_ok hread
          have hdrop : (rest.drop m).length + m = rest.length := by
            rw [List.length_drop, Nat.sub_add_cancel hm]
          have hlength : position + 1 + m + (rest.drop m).length =
              position + (c :: rest).length := by
            rw [List.length_cons]
            omega
          have hlt : (rest.drop m).length < (c :: rest).length := by
            rw [List.length_cons]
            omega
          simp only [Except.map, isStop_ofToken]
          rw [ih _ hlt n _ (rest.drop m) (by omega) rfl, hlength]
          cases Token.scanFrom (position + 1 + m) (rest.drop m) <;> rfl

theorem entries_eq (n : Nat) (t : Text) (h : t.length < n) :
    entries n t = some ((Token.scan t).map (laidOut (Token.endPosition t))) := by
  rw [entries, entriesFrom_eq n 1 t h, Nat.add_comm 1]
  rfl

/-- Under any limit, what a text is cut into is closed by its end. -/
theorem closed_of_entriesFrom {n : Nat} {es : List Entry}
    (h : entriesFrom n position t = some (.ok es)) : Closed es := by
  induction n generalizing position t es with
  | zero => cases h
  | succ n ih =>
    rw [entriesFrom] at h
    split at h
    · cases h
    · next e p rest hnext =>
      split at h
      · next hstop =>
        cases h
        exact ⟨[], e, rfl, hstop, nofun⟩
      · next hstop =>
        obtain ⟨x, hx, hes⟩ := Option.map_eq_some_iff.1 h
        obtain ⟨us, rfl, rfl⟩ := Except.map_eq_ok_iff.1 hes
        obtain ⟨front, last, rfl, hlast, hfront⟩ := ih hx
        exact ⟨e :: front, last, rfl, hlast,
          List.forall_mem_cons.2 ⟨Bool.eq_false_iff.2 hstop, hfront⟩⟩

variable {α : Type} {w : Walk α} {ts : List Token}

/-- What is done under every limit that is high enough. -/
def Settles {β : Type} (f : Nat → Option β) (b : β) : Prop := ∃ m, ∀ n, m ≤ n → f n = some b

theorem settles_of_scan_error {e : CommandFault} (h : Token.scan t = .error e) :
    Settles (walkThrough w t) (.error (.rejected (.command e))) := by
  refine ⟨t.length + 1, fun n hn => ?_⟩
  rw [walkThrough, entries_eq n t hn, h]
  rfl

/-- A walk through a text has all tokens of the text ahead. -/
theorem settles_of_gives {x : Except Rejection α} (h : Token.scan t = .ok ts)
    (hx : Gives (Token.endPosition t) w ts (x.map fun a => (a, []))) :
    Settles (walkThrough w t) (x.mapError Halt.rejected) := by
  have hahead : Ahead (Token.endPosition t) (laidOut (Token.endPosition t) ts) (.initial 0) ts :=
    List.drop_zero
  have hends : ∃ u, Ends w (laidOut (Token.endPosition t) ts) (.initial 0)
      (x.mapError Halt.rejected) u := by
    cases x with
    | error cause => exact hx _ _ hahead
    | ok a => exact (hx _ _ hahead).imp fun _ hu => hu.1
  obtain ⟨u, m, hm⟩ := hends
  refine ⟨max m (t.length + 1), fun n hn => ?_⟩
  rw [walkThrough, entries_eq n t (Nat.le_trans (Nat.le_max_right _ _) hn), h]
  change (w n _ _).bind _ = _
  rw [hm n (Nat.le_trans (Nat.le_max_left _ _) hn)]
  rfl

theorem text_ne_nil {l : Lexeme} (h : l.IsScanned) : l.text ≠ [] := by
  cases l with
  | keyword k => cases k <;> nofun
  | identifier t =>
    rintro rfl
    exact Bool.false_ne_true h.1
  | number t => exact h.1
  | string inner => nofun
  | operator o => cases o <;> nofun
  | mark m => cases m <;> nofun

/-- Read by a cursor, a text is the same statement or turned down for the same cause. -/
theorem settles_statementIn (t : Text) :
    Settles (statementIn t) ((Statement.ofText t).mapError Halt.rejected) := by
  unfold statementIn Statement.ofText
  cases hts : Token.scan t with
  | error e => exact settles_of_scan_error hts
  | ok ts =>
    cases ts with
    | nil => exact settles_of_gives (x := .error _) hts gives_statement_nil
    | cons head ts =>
      have hhead := text_ne_nil (Token.scan_scanned hts head List.mem_cons_self)
      exact settles_of_gives hts (gives_statement hhead)

/-- Read by a cursor, a text is the same condition or turned down for the same cause. -/
theorem settles_conditionIn (t : Text) :
    Settles (conditionIn t) ((Condition.ofText t).mapError Halt.rejected) := by
  unfold conditionIn
  cases hts : Token.scan t with
  | error e =>
    rw [Condition.ofText_of_scan_error hts]
    exact settles_of_scan_error hts
  | ok ts =>
    rw [Condition.ofText_of_scan hts]
    exact settles_of_gives hts gives_wholeCondition

end Texts

/-- Begun at any entry of a list that is closed by its end, a routine ends in one way under every
limit that is high enough, with an entry at every place where it looks. Its cursor never goes back,
and each time that a loop goes round or a group is opened takes an entry of its own, so that this
happens no more often than entries are passed. A text is cut into such a list or turned down, and
what routines make of its entries is what readers make of its tokens. -/
theorem routines_stay_inside :
    (∀ {α : Type} {w : Walk α}, Routine w → ∀ es, Closed es → ∀ start < es.length,
      ∃ r t, Ends w es (.initial start) r t ∧ r ≠ .error .outOfRange ∧
        t.Sound es.length start ∧ start + t.turns.length ≤ t.place) ∧
    (∀ text, Settles (entries · text)
      ((Token.scan text).map (laidOut (Token.endPosition text)))) ∧
    (∀ limit text es, entries limit text = some (.ok es) → Closed es) ∧
    (∀ k m, Reader.body? k = some m → ∃ w, body? k = some w ∧ Follows w m) ∧
    (∀ text, Settles (statementIn text) ((Statement.ofText text).mapError Halt.rejected)) ∧
    ∀ text, Settles (conditionIn text) ((Condition.ofText text).mapError Halt.rejected) := by
  refine ⟨fun h es hes start hstart => ?_,
    fun text => ⟨text.length + 1, fun n => entries_eq n text⟩,
    fun limit text es => closed_of_entriesFrom, fun k m hm => ?_, settles_statementIn,
    settles_conditionIn⟩
  · obtain ⟨r, t, hr, hne, ht⟩ := h.ends hes hstart
    exact ⟨r, t, hr, hne, ht, ht.length_turns_le⟩
  · obtain ⟨-, hnone⟩ | ⟨w, m', hw, hm', hfollows⟩ := follows_body? k
    · cases hnone.symm.trans hm
    · cases hm'.symm.trans hm
      exact ⟨w, hw, hfollows⟩

/-- Two groups that are opened and not closed, and the reading of a statement about a database. -/
theorem routines_stay_inside_of_unclosed :
    (∃ r t, Ends disjunction [⟨.mark, ['('], 1⟩, ⟨.mark, ['('], 2⟩, ⟨.identifier, ['a'], 3⟩,
        ⟨.stop, [], 4⟩] (.initial 0) r t ∧ r ≠ .error .outOfRange ∧ t.Sound 4 0 ∧
        0 + t.turns.length ≤ t.place) ∧
      Closed [.ofToken ⟨.mark .opening, 1⟩, .stop 2] ∧
      ∃ w, body? .USE = some w ∧ Follows w Reader.use := by
  have hclosed : Closed [⟨.mark, ['('], 1⟩, ⟨.mark, ['('], 2⟩, ⟨.identifier, ['a'], 3⟩,
      ⟨.stop, [], 4⟩] :=
    ⟨[⟨.mark, ['('], 1⟩, ⟨.mark, ['('], 2⟩, ⟨.identifier, ['a'], 3⟩], ⟨.stop, [], 4⟩, rfl, rfl,
      by decide⟩
  have hentries : entries 2 ['('] = some (.ok [.ofToken ⟨.mark .opening, 1⟩, .stop 2]) := by
    decide +kernel
  exact ⟨routines_stay_inside.1 .disjunction _ hclosed 0 (by decide),
    routines_stay_inside.2.2.1 2 ['('] _ hentries, routines_stay_inside.2.2.2.1 .USE Reader.use rfl⟩

end Tabular.Cursor
