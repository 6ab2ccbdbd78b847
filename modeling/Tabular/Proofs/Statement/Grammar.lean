import Tabular.Proofs.Statement.Reads

/-!
# The grammar of statements

What is read from a command is exactly what has the form of a statement, and whatever else stands in
it is turned down for the form of the command, a name or the condition.
-/

namespace Tabular

namespace Statement

namespace Reader

/-! ## Parts of statements -/

section Parts

theorem reads_columns : Reads (fun ls columns after => Series IsColumn ls columns ∧
    after.head? ≠ some (.mark .comma)) (list column) :=
  reads_list (fun _ _ => IsColumn.ne_nil) reads_column

theorem reads_newColumns : Reads (fun ls columns after => NewColumns ls columns ∧
    (ls = [] → after.head? ≠ some (.mark .opening))) newColumns := by
  refine (reads_accept (reads_bind reads_columns fun columns =>
    reads_behind (reads_mark .closing) (reads_pure columns)) (reads_pure [])).congr
    fun {ls columns after} _ => ?_
  constructor
  · rintro (⟨_, rfl, ls, _, _, rfl, ⟨hs, -⟩, _, rfl, rfl, rfl⟩ | ⟨hafter, rfl, rfl⟩)
    · exact ⟨.listed hs, by simp⟩
    · exact ⟨.left, fun _ => hafter⟩
  · rintro ⟨h, hafter⟩
    cases h with
    | left => exact .inr ⟨hafter rfl, rfl, rfl⟩
    | @listed ls columns hs =>
      exact .inl ⟨_, rfl, ls, _, columns, rfl, ⟨hs, by simp⟩, [], rfl, rfl, rfl⟩

theorem reads_newValues : Reads (fun ls values _ => NewValues ls values) newValues := by
  refine (reads_behind (reads_mark .opening) (reads_accept (reads_pure [])
    (reads_bind (reads_list (fun _ _ => IsLiteral.ne_nil) reads_literal) fun values =>
      reads_behind (reads_mark .closing) (reads_pure values)))).congr
    fun {ls values after} _ => ?_
  constructor
  · rintro ⟨_, rfl, ⟨_, rfl, rfl, rfl⟩ | ⟨-, ls, _, _, rfl, ⟨hs, -⟩, _, rfl, rfl, rfl⟩⟩
    · exact .empty
    · exact .listed hs
  · intro h
    cases h with
    | empty => exact ⟨_, rfl, .inl ⟨[], rfl, rfl, rfl⟩⟩
    | @listed ls values hs =>
      refine ⟨_, rfl, .inr ⟨?_, ls, _, values, rfl, ⟨hs, by simp⟩, [], rfl, rfl, rfl⟩⟩
      rw [List.append_assoc]
      exact hs.head?_ne IsLiteral.head?_ne_closing _

theorem reads_wantedColumns : Reads (fun ls columns after => WantedColumns ls columns ∧
    (columns.isSome → after.head? ≠ some (.mark .comma))) wantedColumns := by
  refine (reads_accept (reads_pure none) (reads_map reads_columns)).congr
    fun {ls columns after} _ => ?_
  constructor
  · rintro (⟨_, rfl, rfl, rfl⟩ | ⟨-, columns, ⟨hs, hafter⟩, rfl⟩)
    · exact ⟨.star, by simp⟩
    · exact ⟨.listed hs, fun _ => hafter⟩
  · rintro ⟨h, hafter⟩
    cases h with
    | star => exact .inl ⟨[], rfl, rfl, rfl⟩
    | @listed ls columns hs =>
      exact .inr ⟨hs.head?_ne IsColumn.head?_ne_star _, columns, ⟨hs, by simpa using hafter⟩, rfl⟩

theorem reads_assignment : Reads (fun ls a _ => Assigns ls a) assignment := by
  refine (reads_one reads_column fun c => reads_accept (reads_map reads_literal)
    (reads_refuse fun _ => .expectedAssignment c)).congr fun {ls a after} _ => ?_
  constructor
  · rintro ⟨l, _, c, rfl, hl, ⟨_, rfl, v, ⟨m, rfl, hm⟩, rfl⟩ | ⟨-, ⟨⟩⟩⟩
    exact ⟨l, m, rfl, hl, hm⟩
  · rintro ⟨l, m, rfl, hl, hm⟩
    exact ⟨l, _, a.1, rfl, hl, .inl ⟨_, rfl, a.2, ⟨m, rfl, hm⟩, rfl⟩⟩

theorem reads_assignments : Reads (fun ls assignments after => Series Assigns ls assignments ∧
    after.head? ≠ some (.mark .comma)) (list assignment) :=
  reads_list (fun _ _ => Assigns.ne_nil) reads_assignment

theorem stops_iff {ts : List Token} : Condition.Stops ts ↔
    Condition.NoAnd (ts.map Token.lexeme) ∧ Condition.NoOr (ts.map Token.lexeme) := by
  cases ts with
  | nil => exact iff_of_true Condition.stops_nil ⟨nofun, nofun⟩
  | cons t ts =>
    rw [Condition.stops_cons]
    simp [Condition.NoAnd, Condition.NoOr]

theorem run_liftRead (x : Except ConditionFault (Condition × List Token)) (ts : List Token) :
    StateT.run (do
      let (c, rest) ← x.mapError Rejection.condition
      set rest
      return some c : Reader (Option Condition)) ts =
      (x.mapError Rejection.condition).map fun r => (some r.1, r.2) := by
  cases x <;> rfl

/-- A condition is read as far as it goes on. -/
theorem reads_condition : Reads (fun ls condition after => Where ls condition ∧
    (ls = [] → after.head? ≠ some (.keyword .WHERE)) ∧
    (ls ≠ [] → Condition.NoAnd after ∧ Condition.NoOr after)) condition := by
  refine (reads_accept (H := fun ls condition after => ∃ d : Condition.Disjunction, ls = d.yield ∧
    condition = some d.tree ∧ Condition.NoAnd after ∧ Condition.NoOr after) ⟨?_, ?_⟩
    (reads_pure none)).congr fun {ls condition after} _ => ?_
  · intro ts condition rest _
    have hread : (∃ us, ts = us ++ rest ∧ ∃ d : Condition.Disjunction,
        us.map Token.lexeme = d.yield ∧ condition = some d.tree ∧
          Condition.NoAnd (rest.map Token.lexeme) ∧ Condition.NoOr (rest.map Token.lexeme)) ↔
        ∃ c, Condition.read ts = .ok (c, rest) ∧ condition = some c := by
      simp only [Condition.read_eq_ok_iff, stops_iff]
      constructor
      · rintro ⟨us, rfl, d, hd, rfl, hafter⟩
        exact ⟨d.tree, ⟨d, us, rfl, hd, hafter, rfl⟩, rfl⟩
      · rintro ⟨_, ⟨d, us, rfl, hd, hafter, rfl⟩, rfl⟩
        exact ⟨us, rfl, d, hd, rfl, hafter⟩
    rw [hread]
    cases ts with
    | nil =>
      change Except.error _ = Except.ok _ ↔ _
      simp [Condition.read, Condition.readFrom]
    | cons t ts =>
      refine (Eq.congr_left (run_liftRead (Condition.read (t :: ts)) (t :: ts))).trans ?_
      simp only [Except.map_eq_ok_iff, Except.mapError_eq_ok_iff, Prod.mk.injEq]
      constructor
      · rintro ⟨⟨c, _⟩, hr, rfl, rfl⟩
        exact ⟨c, hr, rfl⟩
      · rintro ⟨c, hr, rfl⟩
        exact ⟨(c, rest), hr, rfl, rfl⟩
  · intro ts e h
    cases ts with
    | nil => cases h; trivial
    | cons t ts =>
      have h := (run_liftRead (Condition.read (t :: ts)) (t :: ts)).symm.trans h
      cases hr : Condition.read (t :: ts) <;> rw [hr] at h <;> cases h
      trivial
  · constructor
    · rintro (⟨_, rfl, d, rfl, rfl, hafter⟩ | ⟨hafter, rfl, rfl⟩)
      · exact ⟨.given d, fun h => absurd h (List.cons_ne_nil _ _), fun _ => hafter⟩
      · exact ⟨.left, fun _ => hafter, fun h => absurd rfl h⟩
    · rintro ⟨h, hleft, hgiven⟩
      cases h with
      | left => exact .inr ⟨hleft rfl, rfl, rfl⟩
      | given d => exact .inl ⟨_, rfl, d, rfl, rfl, hgiven (List.cons_ne_nil _ _)⟩

theorem reads_alterAction :
    Reads (fun ls action _ => ls = [.keyword (AlterAction.keyword action)]) alterAction := by
  refine (reads_accept (reads_pure AlterAction.add) (reads_accept (reads_pure AlterAction.drop)
    (reads_refuse fun _ => .expectedAction))).congr fun {ls action after} _ => ?_
  constructor
  · rintro (⟨_, rfl, rfl, rfl⟩ | ⟨-, ⟨_, rfl, rfl, rfl⟩ | ⟨-, ⟨⟩⟩⟩) <;> rfl
  · rintro rfl
    cases action with
    | add => exact .inl ⟨[], rfl, rfl, rfl⟩
    | drop => exact .inr ⟨by simp [AlterAction.keyword], .inl ⟨[], rfl, rfl, rfl⟩⟩

end Parts

/-! ## Statements -/

section Statements

/-- The reader takes what stands behind the keyword in a statement that makes up all lexemes. -/
def ReadsAfter (k : Keyword) (body : Reader Statement) : Prop :=
  ∃ G, Reads G body ∧ ∀ {ls s}, G ls s [] ↔ Form (.keyword k :: ls) s

theorem readsAfter_use : ReadsAfter .USE use := by
  refine ⟨_, reads_map reads_database, ?_⟩
  intro ls s
  constructor
  · rintro ⟨_, ⟨l, rfl, d, hd, rfl⟩, rfl⟩
    exact .use hd
  · intro h
    cases h with
    | @use l d hd => exact ⟨_, ⟨l, rfl, d, hd, rfl⟩, rfl⟩

theorem readsAfter_create : ReadsAfter .CREATE create := by
  refine ⟨_, reads_accept (reads_map reads_database)
    (reads_behind (reads_keyword .TABLE) (reads_one reads_table fun t =>
      reads_map reads_newColumns)), ?_⟩
  intro ls s
  constructor
  · rintro (⟨_, rfl, _, ⟨l, rfl, d, hd, rfl⟩, rfl⟩ |
      ⟨-, _, rfl, l, ls, _, rfl, ⟨t, ht, rfl⟩, columns, ⟨hs, -⟩, rfl⟩)
    · exact .createDatabase hd
    · exact .createTable ht hs
  · intro h
    cases h with
    | @createDatabase l d hd => exact .inl ⟨_, rfl, _, ⟨l, rfl, d, hd, rfl⟩, rfl⟩
    | @createTable l t ls columns ht hs =>
      exact .inr ⟨nofun, _, rfl, l, ls, _, rfl, ⟨t, ht, rfl⟩, columns, ⟨hs, by simp⟩, rfl⟩

theorem readsAfter_drop : ReadsAfter .DROP drop := by
  refine ⟨_, reads_accept (reads_map reads_database)
    (reads_behind (reads_keyword .TABLE) (reads_map reads_table)), ?_⟩
  intro ls s
  constructor
  · rintro (⟨_, rfl, _, ⟨l, rfl, d, hd, rfl⟩, rfl⟩ | ⟨-, _, rfl, _, ⟨l, rfl, t, ht, rfl⟩, rfl⟩)
    · exact .dropDatabase hd
    · exact .dropTable ht
  · intro h
    cases h with
    | @dropDatabase l d hd => exact .inl ⟨_, rfl, _, ⟨l, rfl, d, hd, rfl⟩, rfl⟩
    | @dropTable l t ht => exact .inr ⟨nofun, _, rfl, _, ⟨l, rfl, t, ht, rfl⟩, rfl⟩

theorem readsAfter_alter : ReadsAfter .ALTER alter := by
  refine ⟨_, reads_behind (reads_keyword .TABLE) (reads_one reads_table fun t =>
    reads_bind reads_alterAction fun action =>
      reads_accept (reads_map reads_column) (reads_map reads_column)), ?_⟩
  intro ls s
  constructor
  · rintro ⟨_, rfl, l, _, _, rfl, ⟨t, ht, rfl⟩, _, _, action, rfl, rfl,
      ⟨_, rfl, c, ⟨m, rfl, hm⟩, rfl⟩ | ⟨-, c, ⟨m, rfl, hm⟩, rfl⟩⟩
    · exact .alterTable ht (.inr rfl) hm
    · exact .alterTable ht (.inl rfl) hm
  · intro h
    cases h with
    | @alterTable l m t c action ls ht hw hm =>
      refine ⟨_, rfl, l, _, _, rfl, ⟨t, ht, rfl⟩, [_], _, action, rfl, rfl, ?_⟩
      obtain rfl | rfl := hw
      · refine .inr ⟨?_, c, ⟨m, rfl, hm⟩, rfl⟩
        rintro ⟨⟩
        cases hm
      · exact .inl ⟨_, rfl, c, ⟨m, rfl, hm⟩, rfl⟩

theorem readsAfter_insert : ReadsAfter .INSERT insert := by
  refine ⟨_, reads_behind (reads_keyword .INTO) (reads_one reads_table fun t =>
    reads_behind (reads_keyword .VALUES) (reads_map reads_newValues)), ?_⟩
  intro ls s
  constructor
  · rintro ⟨_, rfl, l, _, _, rfl, ⟨t, ht, rfl⟩, ls, rfl, values, hv, rfl⟩
    exact .insert ht hv
  · intro h
    cases h with
    | @insert l t ls values ht hv =>
      exact ⟨_, rfl, l, _, _, rfl, ⟨t, ht, rfl⟩, ls, rfl, values, hv, rfl⟩

theorem readsAfter_select : ReadsAfter .SELECT select := by
  refine ⟨_, reads_bind reads_wantedColumns fun columns => reads_behind (reads_keyword .FROM)
    (reads_one reads_table fun t => reads_map reads_condition), ?_⟩
  intro ls s
  constructor
  · rintro ⟨ks, _, columns, rfl, ⟨hc, -⟩, _, rfl, l, ls, _, rfl, ⟨t, ht, rfl⟩, condition, ⟨hw, -⟩,
      rfl⟩
    exact .select hc ht hw
  · intro h
    cases h with
    | @select l t ks ls columns condition hc ht hw =>
      exact ⟨ks, _, columns, rfl, ⟨hc, fun _ => nofun⟩, _, rfl, l, ls, _, rfl, ⟨t, ht, rfl⟩,
        condition, ⟨hw, fun _ => nofun, fun _ => ⟨nofun, nofun⟩⟩, rfl⟩

theorem readsAfter_update : ReadsAfter .UPDATE update := by
  refine ⟨_, reads_one reads_table fun t => reads_behind (reads_keyword .SET)
    (reads_bind reads_assignments fun assignments => reads_map reads_condition), ?_⟩
  intro ls s
  constructor
  · rintro ⟨l, _, _, rfl, ⟨t, ht, rfl⟩, _, rfl, ks, ls, assignments, rfl, ⟨ha, -⟩, condition,
      ⟨hw, -⟩, rfl⟩
    exact .update ht ha hw
  · intro h
    cases h with
    | @update l t ks ls assignments condition ht ha hw =>
      refine ⟨l, _, _, rfl, ⟨t, ht, rfl⟩, _, rfl, ks, ls, assignments, rfl, ⟨ha, ?_⟩, condition,
        ⟨hw, fun _ => nofun, fun _ => ⟨nofun, nofun⟩⟩, rfl⟩
      cases hw <;> simp

theorem readsAfter_delete : ReadsAfter .DELETE delete := by
  refine ⟨_, reads_behind (reads_keyword .FROM) (reads_one reads_table fun t =>
    reads_map reads_condition), ?_⟩
  intro ls s
  constructor
  · rintro ⟨_, rfl, l, ls, _, rfl, ⟨t, ht, rfl⟩, condition, ⟨hw, -⟩, rfl⟩
    exact .delete ht hw
  · intro h
    cases h with
    | @delete l t ls condition ht hw =>
      exact ⟨_, rfl, l, ls, _, rfl, ⟨t, ht, rfl⟩, condition,
        ⟨hw, fun _ => nofun, fun _ => ⟨nofun, nofun⟩⟩, rfl⟩

theorem readsAfter_join : ReadsAfter .JOIN join := by
  refine ⟨_, reads_one reads_table fun left => reads_behind (reads_keyword .AND)
    (reads_one reads_table fun right => reads_behind (reads_keyword .ON)
      (reads_one reads_column fun leftColumn => reads_behind (reads_keyword .AND)
        (reads_map reads_column))), ?_⟩
  intro ls s
  constructor
  · rintro ⟨l, _, _, rfl, ⟨left, hl, rfl⟩, _, rfl, r, _, _, rfl, ⟨right, hr, rfl⟩, _, rfl, lc, _,
      leftColumn, rfl, hlc, _, rfl, rightColumn, ⟨rc, rfl, hrc⟩, rfl⟩
    exact .join hl hr hlc hrc
  · intro h
    cases h with
    | @join l r lc rc left right leftColumn rightColumn hl hr hlc hrc =>
      exact ⟨l, _, _, rfl, ⟨left, hl, rfl⟩, _, rfl, r, _, _, rfl, ⟨right, hr, rfl⟩, _, rfl, lc, _,
        leftColumn, rfl, hlc, _, rfl, rightColumn, ⟨rc, rfl, hrc⟩, rfl⟩

theorem readsAfter_body? {k : Keyword} {body : Reader Statement} (h : body? k = some body) :
    ReadsAfter k body := by
  unfold body? at h
  split at h <;> cases h
  · exact readsAfter_use
  · exact readsAfter_create
  · exact readsAfter_drop
  · exact readsAfter_alter
  · exact readsAfter_insert
  · exact readsAfter_select
  · exact readsAfter_update
  · exact readsAfter_delete
  · exact readsAfter_join

/-- A statement begins with a keyword that has a reader. -/
theorem exists_body_of_form {ls : List Lexeme} {s : Statement} (h : Form ls s) :
    ∃ k body ms, ls = .keyword k :: ms ∧ body? k = some body := by
  cases h <;> exact ⟨_, _, _, rfl, rfl⟩

end Statements

end Reader

/-! ## Commands -/

section Commands

open Reader

variable {s : Statement} {cause : Rejection}

theorem ofTokens_eq_ok_iff {head : Token} {ts : List Token}
    (hts : ∀ t ∈ head :: ts, t.lexeme.IsScanned) :
    ofTokens head ts = .ok s ↔ Form ((head :: ts).map Token.lexeme) s := by
  constructor
  · intro h
    unfold ofTokens at h
    split at h
    · next k hk =>
      split at h
      · cases h
      · next body hbody =>
        obtain ⟨G, hG, hform⟩ := readsAfter_body? hbody
        split at h <;> cases h
        next hrun =>
        rw [hG.run_eq_ok_nil fun t ht => hts t (by simp [ht]), hform] at hrun
        rwa [List.map_cons, hk]
    · cases h
  · intro h
    obtain ⟨k, body, ms, hms, hbody⟩ := exists_body_of_form h
    obtain ⟨hk, rfl⟩ := List.cons.inj hms
    obtain ⟨G, hG, hform⟩ := readsAfter_body? hbody
    rw [hms, ← hform, ← hG.run_eq_ok_nil fun t ht => hts t (by simp [ht])] at h
    unfold ofTokens
    simp only [hk, hbody, h]

theorem ofTokens_eq_error {head : Token} {ts : List Token} (h : ofTokens head ts = .error cause) :
    cause.OfForm := by
  unfold ofTokens at h
  split at h
  · split at h
    · cases h; trivial
    · next body hbody =>
      obtain ⟨G, hG, -⟩ := readsAfter_body? hbody
      split at h
      · next hrun =>
        cases h
        exact hG.run_eq_error hrun
      · cases h
      · cases h; trivial
  · cases h; trivial

/-- A text is a statement exactly if its tokens have the form of it. -/
theorem ofText_eq_ok_iff {t : Text} :
    ofText t = .ok s ↔ ∃ ts, Token.scan t = .ok ts ∧ Form (ts.map Token.lexeme) s := by
  unfold ofText
  cases hts : Token.scan t with
  | error fault => simp
  | ok ts =>
    cases ts with
    | nil =>
      simp only [reduceCtorEq, Except.ok.injEq, false_iff]
      rintro ⟨_, rfl, h⟩
      cases h
    | cons head ts =>
      change ofTokens head ts = .ok s ↔ _
      rw [ofTokens_eq_ok_iff (Token.scan_scanned hts)]
      simp

theorem ofText_eq_error {t : Text} (h : ofText t = .error cause) : cause.OfForm := by
  unfold ofText at h
  split at h
  · cases h; trivial
  · cases h; trivial
  · exact ofTokens_eq_error h

theorem commandBody_eq_ok_iff {command body : Text} :
    commandBody command = .ok body ↔
      body ≠ [] ∧ ∃ front, Text.trim command = front ++ [';'] ∧ Text.trim front = body := by
  unfold commandBody
  dsimp only
  split
  · next hempty =>
    simp only [List.isEmpty_iff] at hempty
    simp [hempty]
  split
  · next hlast =>
    simp only [reduceCtorEq, false_iff]
    rintro ⟨-, front, hfront, -⟩
    simp [hfront] at hlast
  · next hlast =>
    -- The front is what stands before the semicolon.
    have hfront : ∀ front, Text.trim command = front ++ [';'] ↔
        (Text.trim command).dropLast = front := by
      intro front
      have hsplit := List.dropLast_append_getLast? ';' (by simpa using hlast)
      constructor
      · intro h
        rw [h, List.dropLast_concat]
      · rintro rfl
        exact hsplit.symm
    simp only [hfront, exists_eq_left']
    split
    · next hempty =>
      simp only [List.isEmpty_iff] at hempty
      simp only [reduceCtorEq, false_iff]
      rintro ⟨hne, rfl⟩
      exact hne hempty
    · next hempty =>
      simp only [List.isEmpty_iff] at hempty
      simp only [Except.ok.injEq]
      exact ⟨fun h => ⟨h ▸ hempty, h⟩, fun h => h.2⟩

theorem ofCommand_eq_ok_iff {command : Text} :
    ofCommand command = .ok s ↔ ∃ body, commandBody command = .ok body ∧ ofText body = .ok s := by
  unfold ofCommand
  cases commandBody command <;> simp

/-- What a command says has the form of its statement. -/
theorem exists_form {command : Text} (h : ofCommand command = .ok s) :
    ∃ ls, (∀ l ∈ ls, l.IsScanned) ∧ Form ls s := by
  obtain ⟨body, -, hbody⟩ := ofCommand_eq_ok_iff.1 h
  obtain ⟨ts, hts, hform⟩ := ofText_eq_ok_iff.1 hbody
  exact ⟨_, List.forall_mem_map.2 (Token.scan_scanned hts), hform⟩

/-- A command is a statement exactly if it ends with a semicolon, but for blanks, and what stands
before it is not empty and has the form of the statement. Any other command is turned down for its
form, for a name in it or for the form of its condition. -/
theorem ofCommand_eq_ok_iff_form (command : Text) :
    (∀ s, ofCommand command = .ok s ↔ ∃ front ts, Text.trim command = front ++ [';'] ∧
      Text.trim front ≠ [] ∧ Token.scan (Text.trim front) = .ok ts ∧
      Form (ts.map Token.lexeme) s) ∧
    ∀ cause, ofCommand command = .error cause → cause.OfForm := by
  refine ⟨fun s => ?_, fun cause h => ?_⟩
  · simp only [ofCommand_eq_ok_iff, commandBody_eq_ok_iff, ofText_eq_ok_iff]
    constructor
    · rintro ⟨_, ⟨hne, front, hfront, rfl⟩, ts, hts, h⟩
      exact ⟨front, ts, hfront, hne, hts, h⟩
    · rintro ⟨front, ts, hfront, hne, hts, h⟩
      exact ⟨Text.trim front, ⟨hne, front, hfront, rfl⟩, ts, hts, h⟩
  · unfold ofCommand at h
    split at h
    · cases h; trivial
    · exact ofText_eq_error h

end Commands

end Statement

end Tabular
