import Tabular.Proofs.Except
import Tabular.Token.Scan

/-!
# Quoted text in a statement

The lexemes of a text are the same wherever it begins, and what stands before a single quote, or
before any other character that no lexeme but a quoted one goes on with, is cut into tokens as if the
text ended there. So quoted text is one lexeme, and the lexemes around it do not depend on what it
is.
-/

namespace Tabular

namespace Lexeme

/-! ## Before a dividing character -/

/-- A character that no word, number or operator goes on with. -/
structure Divides (s : Char) : Prop where
  word : Text.isWordChar s = false
  digit : Text.isDigitMark s = false
  point : s ≠ '.'
  equals : s ≠ '='

theorem divides_quote : Divides '\'' := ⟨by decide, by decide, by decide, by decide⟩

section Before

variable {s : Char} (hs : Divides s) (rest after : Text)

/-- Characters that the dividing one is not one of are taken up to it at most. -/
theorem takeWhile_append_cons {p : Char → Bool} (hp : p s = false) :
    (rest ++ s :: after).takeWhile p = rest.takeWhile p := by
  induction rest with
  | nil => simp [hp]
  | cons c rest ih =>
    rw [List.cons_append, List.takeWhile_cons, List.takeWhile_cons, ih]

theorem fraction_of_ne_point {c : Char} (hc : c ≠ '.') (t : Text) : fraction (c :: t) = [] := by
  unfold fraction
  split <;> simp_all

theorem length_fraction_le : (fraction rest).length ≤ rest.length := by
  unfold fraction
  split
  · next t =>
    dsimp only
    split
    · exact Nat.zero_le _
    · simpa using (List.takeWhile_prefix Text.isDigitMark).length_le
  · exact Nat.zero_le _

theorem length_takeWhile_le (p : Char → Bool) : (rest.takeWhile p).length ≤ rest.length :=
  (List.takeWhile_prefix p).length_le

/-- Text in quotes is read whatever follows it. -/
theorem readQuoted_append {position n : Nat} {l : Lexeme}
    (h : readQuoted position rest = .ok (l, n)) :
    readQuoted position (rest ++ after) = .ok (l, n) := by
  unfold readQuoted at h ⊢
  dsimp only at h ⊢
  split at h
  · cases h
  · next hne =>
    have hlt : (rest.takeWhile (· != '\'')).length < rest.length :=
      Nat.lt_of_le_of_ne (length_takeWhile_le rest _) hne
    have hrun : (rest ++ after).takeWhile (· != '\'') = rest.takeWhile (· != '\'') := by
      rw [List.takeWhile_append, if_neg hne]
    rw [hrun, if_neg (by rw [List.length_append]; omega)]
    exact h

include hs

theorem startsWord_divided : startsWord (rest ++ s :: after) = startsWord rest := by
  cases rest with
  | nil => exact hs.word
  | cons c rest => rfl

theorem startsDigit_divided : startsDigit (rest ++ s :: after) = startsDigit rest := by
  cases rest with
  | nil => exact hs.digit
  | cons c rest => rfl

theorem fraction_divided : fraction (rest ++ s :: after) = fraction rest := by
  cases rest with
  | nil => exact fraction_of_ne_point hs.point after
  | cons c rest =>
    by_cases hc : c = '.'
    · subst hc
      rw [List.cons_append, fraction, fraction, takeWhile_append_cons _ _ hs.digit]
    · rw [List.cons_append, fraction_of_ne_point hc, fraction_of_ne_point hc]

theorem readNumber_divided (position : Nat) (read : Text) :
    readNumber position read (rest ++ s :: after) = readNumber position read rest := by
  unfold readNumber
  rw [fraction_divided hs]
  dsimp only
  rw [List.drop_append_of_le_length (length_fraction_le rest), startsWord_divided hs]

theorem readSigned_divided (position : Nat) (sign : Char) :
    readSigned position sign (rest ++ s :: after) = readSigned position sign rest := by
  unfold readSigned
  rw [takeWhile_append_cons _ _ hs.word]
  dsimp only
  rw [List.drop_append_of_le_length (length_takeWhile_le rest _), readNumber_divided hs]

theorem readWord_divided (position : Nat) (c : Char) :
    readWord position c (rest ++ s :: after) = readWord position c rest := by
  unfold readWord
  rw [takeWhile_append_cons _ _ hs.word]
  dsimp only
  rw [List.drop_append_of_le_length (length_takeWhile_le rest _), readNumber_divided hs]

theorem readSign_divided (position : Nat) (c : Char) :
    readSign position c (rest ++ s :: after) = readSign position c rest := by
  have hequals : ((rest ++ s :: after).head? == some '=') = (rest.head? == some '=') := by
    cases rest with
    | nil => simpa using hs.equals
    | cons c rest => rfl
  unfold readSign
  rw [hequals]

end Before

/-! ## How far a lexeme goes -/

section Length

/-- What is read off a text goes on no further than the text does. -/
abbrev EndsIn (rest : Text) (x : Except CommandFault (Lexeme × Nat)) : Prop :=
  x.Gives (fun r => r.2 ≤ rest.length) fun _ => True

variable {position : Nat} {c : Char} (rest : Text)

theorem readNumber_endsIn {read : Text} : EndsIn rest (readNumber position read rest) := by
  unfold readNumber
  dsimp only
  split
  · trivial
  · exact length_fraction_le rest

theorem run_endsIn {read : Text} (p : Char → Bool) :
    EndsIn rest ((readNumber position read (rest.drop (rest.takeWhile p).length)).map
      fun (l, n) => (l, (rest.takeWhile p).length + n)) := by
  refine Except.gives_map.2 ((readNumber_endsIn _).mono (fun r hr => ?_) fun _ h => h)
  have hle := length_takeWhile_le rest p
  rw [List.length_drop] at hr
  dsimp only
  omega

theorem readSigned_endsIn : EndsIn rest (readSigned position c rest) := by
  unfold readSigned
  dsimp only
  split
  · exact run_endsIn rest _
  · trivial

theorem readWord_endsIn : EndsIn rest (readWord position c rest) := by
  unfold readWord
  dsimp only
  split
  · exact run_endsIn rest _
  · exact length_takeWhile_le rest _

theorem readQuoted_endsIn : EndsIn rest (readQuoted position rest) := by
  unfold readQuoted
  dsimp only
  split
  · trivial
  · next hne =>
    have hle := length_takeWhile_le rest (· != '\'')
    change _ + 1 ≤ _
    omega

theorem readSign_endsIn : EndsIn rest (readSign position c rest) := by
  have hequals : (rest.head? == some '=') = true → 1 ≤ rest.length := by
    cases rest with
    | nil => exact nofun
    | cons d rest => simp
  unfold readSign
  dsimp only
  split
  all_goals first | exact Nat.zero_le _ | trivial | skip
  all_goals
    split
    · next h => exact hequals h
    · first | exact Nat.zero_le _ | trivial

theorem read_endsIn : EndsIn rest (read position c rest) := by
  unfold read
  split
  · exact readQuoted_endsIn rest
  split
  · exact readSigned_endsIn rest
  split
  · exact readWord_endsIn rest
  · exact readSign_endsIn rest

end Length

/-- A lexeme that is read is read before a dividing character too. -/
theorem read_divided {s : Char} (hs : Divides s) {position n : Nat} {c : Char} {rest : Text}
    {l : Lexeme} (h : read position c rest = .ok (l, n)) (after : Text) :
    read position c (rest ++ s :: after) = .ok (l, n) := by
  rw [← h]
  unfold read at h ⊢
  rw [startsDigit_divided hs, readSigned_divided hs, readWord_divided hs, readSign_divided hs]
  split
  · next hc =>
    rw [if_pos hc] at h
    rw [h, readQuoted_append _ _ h]
  · rfl

/-! ## Places -/

section Places

variable (position other : Nat) (c : Char) (rest : Text)

theorem toOption_map {ε α β : Type} (x : Except ε α) (f : α → β) :
    (x.map f).toOption = x.toOption.map f := by
  cases x <;> rfl

theorem toOption_readNumber (read : Text) :
    (readNumber position read rest).toOption = (readNumber other read rest).toOption := by
  unfold readNumber
  dsimp only
  split <;> rfl

theorem toOption_readSigned :
    (readSigned position c rest).toOption = (readSigned other c rest).toOption := by
  unfold readSigned
  dsimp only
  split
  · rw [toOption_map, toOption_map, toOption_readNumber position other]
  · rfl

theorem toOption_readWord :
    (readWord position c rest).toOption = (readWord other c rest).toOption := by
  unfold readWord
  dsimp only
  split
  · rw [toOption_map, toOption_map, toOption_readNumber position other]
  · rfl

theorem toOption_readQuoted :
    (readQuoted position rest).toOption = (readQuoted other rest).toOption := by
  unfold readQuoted
  dsimp only
  split <;> rfl

theorem toOption_readSign :
    (readSign position c rest).toOption = (readSign other c rest).toOption := by
  unfold readSign
  dsimp only
  split
  all_goals first | rfl | (split <;> rfl)

/-- What is read does not depend on where it stands. -/
theorem toOption_read : (read position c rest).toOption = (read other c rest).toOption := by
  unfold read
  split
  · exact toOption_readQuoted position other rest
  split
  · exact toOption_readSigned position other c rest
  split
  · exact toOption_readWord position other c rest
  · exact toOption_readSign position other c rest

end Places

end Lexeme

namespace Token

/-- The lexemes of a text, if it can be cut into tokens. -/
def lexemes? (t : Text) : Option (List Lexeme) := (scan t).toOption.map (List.map lexeme)

theorem lexemes?_eq_some_iff {t : Text} {ls : List Lexeme} :
    lexemes? t = some ls ↔ ∃ ts, scan t = .ok ts ∧ ts.map lexeme = ls := by
  simp [lexemes?, Except.toOption_eq_some_iff]

theorem scanFrom_cons {position : Nat} {c : Char} {rest : Text} (hc : Text.isBlank c = false) :
    ((scanFrom position (c :: rest)).toOption.map (List.map lexeme)) =
      (Lexeme.read position c rest).toOption.bind fun r =>
        ((scanFrom (position + 1 + r.2) (rest.drop r.2)).toOption.map (List.map lexeme)).map
          (r.1 :: ·) := by
  rw [scanFrom, if_neg (by simp [hc])]
  cases hr : Lexeme.read position c rest with
  | error e => rfl
  | ok r =>
    dsimp only
    rw [Lexeme.toOption_map]
    simp [Except.toOption, Function.comp_def]

/-- The lexemes of a text do not depend on where it begins. -/
theorem toOption_scanFrom (position other : Nat) (t : Text) :
    (scanFrom position t).toOption.map (List.map lexeme) =
      (scanFrom other t).toOption.map (List.map lexeme) := by
  induction hn : t.length using Nat.strongRecOn generalizing t position other with
  | ind n ih =>
    subst hn
    cases t with
    | nil => rw [scanFrom_nil, scanFrom_nil]
    | cons c rest =>
      by_cases hc : Text.isBlank c
      · rw [scanFrom_blank hc, scanFrom_blank hc]
        exact ih rest.length (by simp) _ _ rest rfl
      · rw [scanFrom_cons (by simpa using hc), scanFrom_cons (by simpa using hc),
          Lexeme.toOption_read position other]
        refine Option.bind_congr fun r _ => ?_
        have hlt : (rest.drop r.2).length < (c :: rest).length := by
          rw [List.length_drop, List.length_cons]
          omega
        rw [ih _ hlt _ (other + 1 + r.2) _ rfl]

theorem lexemes?_nil : lexemes? [] = some [] := by
  rw [lexemes?, scan, scanFrom_nil]
  rfl

theorem lexemes?_blank {c : Char} {rest : Text} (hc : Text.isBlank c) :
    lexemes? (c :: rest) = lexemes? rest := by
  rw [lexemes?, scan, scanFrom_blank hc]
  exact toOption_scanFrom _ _ rest

theorem lexemes?_cons {c : Char} {rest : Text} (hc : Text.isBlank c = false) (position : Nat) :
    lexemes? (c :: rest) = (Lexeme.read position c rest).toOption.bind fun r =>
      (lexemes? (rest.drop r.2)).map (r.1 :: ·) := by
  rw [lexemes?, scan, scanFrom_cons hc, Lexeme.toOption_read 1 position]
  refine Option.bind_congr fun r _ => ?_
  rw [lexemes?, scan, toOption_scanFrom _ 1]

/-! ## Quoted text -/

/-- What stands before a dividing character is cut into tokens as it is when nothing follows it. -/
theorem scanFrom_divided {s : Char} (hs : Lexeme.Divides s) {position : Nat} {before : Text}
    {ts : List Token} (h : scanFrom position before = .ok ts) (after : Text) :
    scanFrom position (before ++ s :: after) =
      (scanFrom (position + before.length) (s :: after)).map (ts ++ ·) := by
  induction hn : before.length using Nat.strongRecOn generalizing before position ts with
  | ind n ih =>
    subst hn
    cases before with
    | nil =>
      rw [scanFrom_nil] at h
      cases h
      change scanFrom position (s :: after) = (scanFrom position (s :: after)).map id
      cases scanFrom position (s :: after) <;> rfl
    | cons c rest =>
      by_cases hc : Text.isBlank c
      · rw [scanFrom_blank hc] at h
        rw [List.cons_append, scanFrom_blank hc, ih rest.length (by simp) h rfl, List.length_cons,
          Nat.add_assoc, Nat.add_comm 1]
      · rw [scanFrom, if_neg hc] at h
        cases hr : Lexeme.read position c rest with
        | error e => rw [hr] at h; cases h
        | ok r =>
          obtain ⟨l, n⟩ := r
          rw [hr] at h
          obtain ⟨us, hus, rfl⟩ := Except.map_eq_ok_iff.1 h
          have hn : n ≤ rest.length := (Lexeme.read_endsIn rest).of_ok hr
          have hlt : (rest.drop n).length < (c :: rest).length := by
            rw [List.length_drop, List.length_cons]
            omega
          have hplace : position + 1 + n + (rest.drop n).length = position + (c :: rest).length := by
            rw [List.length_drop, List.length_cons]
            omega
          rw [List.cons_append, scanFrom, if_neg hc, Lexeme.read_divided hs hr]
          dsimp only
          rw [List.drop_append_of_le_length hn, ih _ hlt hus rfl, hplace]
          cases scanFrom (position + (c :: rest).length) (s :: after) <;> rfl

/-- So are its lexemes. -/
theorem lexemes?_divided {s : Char} (hs : Lexeme.Divides s) {before : Text} {ks : List Lexeme}
    (h : lexemes? before = some ks) (after : Text) :
    lexemes? (before ++ s :: after) = (lexemes? (s :: after)).map (ks ++ ·) := by
  obtain ⟨ts, hts, rfl⟩ := lexemes?_eq_some_iff.1 h
  rw [lexemes?, scan, scanFrom_divided hs hts, Lexeme.toOption_map, lexemes?, scan,
    toOption_scanFrom 1 (1 + before.length), Option.map_map, Option.map_map]
  exact congrArg (Option.map · _) (funext fun us => List.map_append)

theorem text_string_append (inner after : Text) :
    (Lexeme.string inner).text ++ after = '\'' :: (inner ++ '\'' :: after) := by
  simp [Lexeme.text]

/-- Text in quotes is one lexeme, whatever the text is. -/
theorem lexemes?_quoted {inner : Text} (hq : '\'' ∉ inner) (after : Text) :
    lexemes? ((Lexeme.string inner).text ++ after) =
      (lexemes? after).map (.string inner :: ·) := by
  have hinner : (inner ++ '\'' :: after).takeWhile (· != '\'') = inner := by
    have hne : ∀ c ∈ inner, (c != '\'') = true := by
      intro c hc
      rw [bne_iff_ne]
      rintro rfl
      exact hq hc
    rw [List.takeWhile_append_of_pos hne]
    simp
  have hr : Lexeme.read 1 '\'' (inner ++ '\'' :: after) =
      .ok (.string inner, inner.length + 1) := by
    rw [Lexeme.read, if_pos rfl, Lexeme.readQuoted, hinner, if_neg (by simp)]
  rw [text_string_append, lexemes?_cons (by decide) 1, hr]
  change (lexemes? ((inner ++ '\'' :: after).drop (inner.length + 1))).map _ = _
  have hdrop : (inner ++ '\'' :: after).drop (inner.length + 1) = after := by
    rw [List.append_cons, List.drop_left']
    simp
  rw [hdrop]

/-- Around quoted text the lexemes do not depend on it. -/
theorem lexemes?_around {before after inner : Text} {ks : List Lexeme} (hq : '\'' ∉ inner)
    (h : lexemes? before = some ks) :
    lexemes? (before ++ (Lexeme.string inner).text ++ after) =
      (lexemes? after).map (ks ++ .string inner :: ·) := by
  rw [List.append_assoc, text_string_append, lexemes?_divided Lexeme.divides_quote h, ← text_string_append,
    lexemes?_quoted hq, Option.map_map]
  rfl

end Token

end Tabular
