import Tabular.Proofs.Token.Words

/-!
# Texts cut between tokens

A lexeme is read in the same way where the text ends behind it. So a text may be cut between any two
of its tokens: the pieces by themselves have the tokens that they have within the text, and a piece
in parentheses has two more.
-/

namespace Tabular

namespace Lexeme

section Take

variable {position m n : Nat} {c : Char} {front rest : Text} {l : Lexeme}

theorem takeWhile_take_of_le {p : Char → Bool} (h : (rest.takeWhile p).length ≤ m) :
    (rest.take m).takeWhile p = rest.takeWhile p := by
  rw [← List.take_takeWhile, List.take_of_length_le h]

theorem startsWord_take (h : startsWord rest = false) (m : Nat) :
    startsWord (rest.take m) = false := by
  cases rest with
  | nil => simp [startsWord]
  | cons c rest =>
    cases m with
    | zero => rfl
    | succ m => exact h

theorem startsDigit_of_take (h : startsDigit (rest.take m)) : startsDigit rest := by
  cases rest with
  | nil => simp [startsDigit] at h
  | cons c rest =>
    cases m with
    | zero => cases h
    | succ m => exact h

theorem startsDigit_take (h : startsDigit rest) (hm : 1 ≤ m) : startsDigit (rest.take m) := by
  obtain ⟨m, rfl⟩ := Nat.exists_eq_add_of_le' hm
  cases rest with
  | nil => cases h
  | cons c rest => exact h

/-- A sign is a number only with a digit behind it. -/
theorem readSigned_pos (h : readSigned position c rest = .ok (l, n)) : 1 ≤ n := by
  unfold readSigned at h
  dsimp only at h
  split at h
  · next hrun =>
    obtain ⟨⟨l, k⟩, -, ⟨⟩⟩ := Except.map_eq_ok_iff.1 h
    simp only [Bool.and_eq_true, Bool.not_eq_true', List.isEmpty_eq_false_iff] at hrun
    have hpos := List.length_pos_iff.2 hrun.1
    omega
  · cases h

theorem fraction_take (h : (fraction rest).length ≤ m) :
    fraction (rest.take m) = fraction rest := by
  cases rest with
  | nil => simp
  | cons c rest =>
    cases m with
    | zero => exact (List.eq_nil_of_length_eq_zero (Nat.le_zero.1 h)).symm
    | succ m =>
      by_cases hc : c = '.'
      · subst hc
        have hrun : (rest.take m).takeWhile Text.isDigitMark = rest.takeWhile Text.isDigitMark := by
          refine takeWhile_take_of_le ?_
          by_cases hrun : rest.takeWhile Text.isDigitMark = []
          · simp [hrun]
          · simpa [fraction, hrun] using h
        rw [List.take_succ_cons, fraction, fraction, hrun]
      · rw [List.take_succ_cons, fraction_of_ne_point hc, fraction_of_ne_point hc]

theorem readNumber_take (h : readNumber position front rest = .ok (l, n)) (hm : n ≤ m) :
    readNumber position front (rest.take m) = .ok (l, n) := by
  unfold readNumber at h ⊢
  dsimp only at h ⊢
  split at h
  · cases h
  · next hword =>
    cases h
    rw [fraction_take hm, List.drop_take, if_neg]
    simp only [Bool.and_eq_true, Bool.not_eq_true', not_and, Bool.not_eq_true] at hword ⊢
    exact fun hf => startsWord_take (hword hf) _

/-- A run of characters, and a number that it begins. -/
theorem run_take {p : Char → Bool}
    (h : (readNumber position front (rest.drop (rest.takeWhile p).length)).map
      (fun (l, n) => (l, (rest.takeWhile p).length + n)) = .ok (l, n)) (hm : n ≤ m) :
    (rest.take m).takeWhile p = rest.takeWhile p ∧
      (readNumber position front ((rest.take m).drop (rest.takeWhile p).length)).map
        (fun (l, n) => (l, (rest.takeWhile p).length + n)) = .ok (l, n) := by
  obtain ⟨⟨l, k⟩, hk, ⟨⟩⟩ := Except.map_eq_ok_iff.1 h
  refine ⟨takeWhile_take_of_le (by omega), ?_⟩
  rw [List.drop_take, readNumber_take hk (by omega)]
  rfl

theorem readSigned_take (h : readSigned position c rest = .ok (l, n)) (hm : n ≤ m) :
    readSigned position c (rest.take m) = .ok (l, n) := by
  unfold readSigned at h ⊢
  dsimp only at h ⊢
  split at h
  · next hrun =>
    obtain ⟨htake, hread⟩ := run_take h hm
    rw [htake, if_pos hrun, hread]
  · cases h

theorem readWord_take (h : readWord position c rest = .ok (l, n)) (hm : n ≤ m) :
    readWord position c (rest.take m) = .ok (l, n) := by
  unfold readWord at h ⊢
  dsimp only at h ⊢
  split at h
  · next hrun =>
    obtain ⟨htake, hread⟩ := run_take h hm
    rw [htake, if_pos hrun, hread]
  · next hrun =>
    cases h
    rw [takeWhile_take_of_le hm, if_neg hrun]

theorem readQuoted_take (h : readQuoted position rest = .ok (l, n)) (hm : n ≤ m) :
    readQuoted position (rest.take m) = .ok (l, n) := by
  unfold readQuoted at h ⊢
  dsimp only at h ⊢
  split at h
  · cases h
  · next hne =>
    cases h
    have hle := length_takeWhile_le rest (· != '\'')
    rw [takeWhile_take_of_le (by omega), if_neg (by rw [List.length_take]; omega)]

theorem readSign_take (h : readSign position c rest = .ok (l, n)) (hm : n ≤ m) :
    readSign position c (rest.take m) = .ok (l, n) := by
  have hequals : (rest.head? == some '=') = true → 1 ≤ m →
      ((rest.take m).head? == some '=') = true := by
    intro hhead hm
    rwa [List.head?_take, if_neg (by omega)]
  have hother : ¬(rest.head? == some '=') = true → ¬((rest.take m).head? == some '=') = true := by
    intro hhead
    rw [List.head?_take]
    split
    · decide
    · exact hhead
  unfold readSign at h ⊢
  dsimp only at h ⊢
  split at h
  all_goals first | exact h | skip
  all_goals
    split at h
    · next hhead =>
      cases h
      rw [if_pos (hequals hhead hm)]
    · next hhead =>
      rw [if_neg (hother hhead)]
      exact h

/-- A lexeme that is read is read where the text ends behind it too. -/
theorem read_take (h : read position c rest = .ok (l, n)) (hm : n ≤ m) :
    read position c (rest.take m) = .ok (l, n) := by
  unfold read at h ⊢
  split at h
  · next hc => rw [if_pos hc, readQuoted_take h hm]
  next hc =>
  rw [if_neg hc]
  split at h
  · next hsign =>
    rw [if_pos ⟨hsign.1, startsDigit_take hsign.2 (Nat.le_trans (readSigned_pos h) hm)⟩]
    exact readSigned_take h hm
  next hsign =>
  rw [if_neg fun hs => hsign ⟨hs.1, startsDigit_of_take hs.2⟩]
  split at h
  · next hword => rw [if_pos hword, readWord_take h hm]
  · next hword => rw [if_neg hword, readSign_take h hm]

/-- So it is where the text ends further on. -/
theorem read_take_append {before after : Text} (h : read position c rest = .ok (l, n))
    (hrest : rest.drop n = before ++ after) :
    read position c (rest.take n ++ before) = .ok (l, n) := by
  have hprefix : rest.take (n + before.length) = rest.take n ++ before := by
    rw [List.take_add, hrest, List.take_left]
  rw [← hprefix]
  exact read_take h (Nat.le_add_right _ _)

end Take

end Lexeme

namespace Token

/-- A text whose tokens come in two parts can be cut between them. -/
theorem exists_append_of_scanFrom {position : Nat} {t : Text} {us vs : List Token}
    (h : scanFrom position t = .ok (us ++ vs)) : ∃ before after, t = before ++ after ∧
      scanFrom position before = .ok us ∧ scanFrom (position + before.length) after = .ok vs := by
  induction hn : t.length using Nat.strongRecOn generalizing position t us with
  | ind n ih =>
    subst hn
    cases us with
    | nil => exact ⟨[], t, rfl, scanFrom_nil _, h⟩
    | cons u us =>
      cases t with
      | nil => rw [scanFrom_nil] at h; cases h
      | cons c rest =>
        by_cases hc : Text.isBlank c
        · rw [scanFrom_blank hc] at h
          obtain ⟨before, after, rfl, hb, ha⟩ := ih rest.length (by simp) h rfl
          have hplace : position + 1 + before.length = position + (c :: before).length := by
            rw [List.length_cons]
            omega
          exact ⟨c :: before, after, rfl, (scanFrom_blank hc).trans hb, hplace ▸ ha⟩
        · rw [scanFrom, if_neg hc] at h
          cases hr : Lexeme.read position c rest with
          | error e => rw [hr] at h; cases h
          | ok r =>
            obtain ⟨l, n⟩ := r
            rw [hr] at h
            obtain ⟨ts, hts, hcons⟩ := Except.map_eq_ok_iff.1 h
            obtain ⟨rfl, rfl⟩ := List.cons.inj hcons
            have hn : n ≤ rest.length := (Lexeme.read_endsIn rest).of_ok hr
            have hlt : (rest.drop n).length < (c :: rest).length := by
              rw [List.length_drop, List.length_cons]
              omega
            obtain ⟨before, after, hdrop, hb, ha⟩ := ih _ hlt hts rfl
            have htake : rest = (rest.take n ++ before) ++ after := by
              rw [List.append_assoc, ← hdrop, List.take_append_drop]
            have hlength : (rest.take n ++ before).length = n + before.length := by
              rw [List.length_append, List.length_take, Nat.min_eq_left hn]
            have hplace : position + 1 + n + before.length =
                position + (c :: (rest.take n ++ before)).length := by
              rw [List.length_cons, hlength]
              omega
            refine ⟨c :: (rest.take n ++ before), after, congrArg (c :: ·) htake, ?_, hplace ▸ ha⟩
            rw [scanFrom, if_neg hc, Lexeme.read_take_append hr hdrop]
            dsimp only
            rw [List.drop_left' (by rw [List.length_take, Nat.min_eq_left hn]), hb]
            rfl

variable {before mid after : Text} {us vs ws : List Token}

/-- A text in three pieces, each of them cut into tokens by itself as it is within the text, but for
the places of the tokens. -/
structure Cut (before mid after : Text) (us vs ws : List Token) : Prop where
  whole : scan (before ++ mid ++ after) = .ok (us ++ (vs ++ ws))
  front : scan before = .ok us
  middle : lexemes? mid = some (vs.map lexeme)
  back : lexemes? after = some (ws.map lexeme)

/-- Parentheses around the middle piece are two more tokens. -/
theorem Cut.exists_scan (h : Cut before mid after us vs ws) : ∃ o e vs' ws',
    scan (before ++ (['('] ++ mid ++ [')']) ++ after) = .ok (us ++ (o :: (vs' ++ [e]) ++ ws')) ∧
      o.lexeme = .mark .opening ∧ e.lexeme = .mark .closing ∧
      vs'.map lexeme = vs.map lexeme ∧ ws'.map lexeme = ws.map lexeme := by
  have htext : before ++ (['('] ++ mid ++ [')']) ++ after =
      before ++ '(' :: (mid ++ ')' :: after) := by simp
  have hlexemes : lexemes? ('(' :: (mid ++ ')' :: after)) = some (.mark .opening ::
      (vs.map lexeme ++ .mark .closing :: ws.map lexeme)) := by
    rw [← List.singleton_append, ← List.singleton_append (x := ')')]
    change lexemes? (Mark.opening.text ++ (mid ++ ')' :: after)) = _
    rw [lexemes?_mark, lexemes?_divided Lexeme.divides_closing h.middle]
    change ((lexemes? (Mark.closing.text ++ after)).map _).map _ = _
    rw [lexemes?_mark, h.back]
    rfl
  rw [lexemes?, scan, toOption_scanFrom 1 (1 + before.length), Option.map_eq_some_iff] at hlexemes
  obtain ⟨ts, hts, hl⟩ := hlexemes
  obtain ⟨o, ts, rfl, ho, hl⟩ := List.map_eq_cons_iff.1 hl
  obtain ⟨vs', ts, rfl, hvs, hl⟩ := List.map_eq_append_iff.1 hl
  obtain ⟨e, ws', rfl, he, hws⟩ := List.map_eq_cons_iff.1 hl
  refine ⟨o, e, vs', ws', ?_, ho, he, hvs, hws⟩
  rw [htext, scan, scanFrom_divided Lexeme.divides_opening h.front, Except.toOption_eq_some_iff.1 hts]
  simp [Except.map]

/-- A text may be cut before and behind any of its tokens. -/
theorem exists_cut {t : Text} (h : scan t = .ok (us ++ (vs ++ ws))) :
    ∃ before mid after, t = before ++ mid ++ after ∧ Cut before mid after us vs ws := by
  obtain ⟨before, rest, rfl, hfront, hrest⟩ := exists_append_of_scanFrom h
  obtain ⟨mid, after, rfl, hmid, hafter⟩ := exists_append_of_scanFrom hrest
  refine ⟨before, mid, after, (List.append_assoc _ _ _).symm, ?_, hfront, ?_, ?_⟩
  · rwa [List.append_assoc]
  · rw [lexemes?, scan, toOption_scanFrom 1 (1 + before.length), hmid]
    rfl
  · rw [lexemes?, scan, toOption_scanFrom 1 (1 + before.length + mid.length), hafter]
    rfl

end Token

end Tabular
