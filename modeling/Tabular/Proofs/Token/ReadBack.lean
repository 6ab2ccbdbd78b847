import Mathlib.Data.List.TakeWhile
import Tabular.Condition.Reader
import Tabular.Proofs.Token.Words

/-!
# Lexemes read back

A lexeme that is no quoted text is read back from its own text, and a value that it stands for shows
the same text.
-/

namespace Tabular

theorem Value.ofLiteral_text {c : Char} {t : Text} (hc : c ≠ '\'')
    (hk : Keyword.ofWord? (c :: t) = none) : (ofLiteral (c :: t)).text = c :: t := by
  have hquote : unquote? (c :: t) = none := by
    unfold unquote?
    split <;> simp_all
  rw [ofLiteral, hquote]
  dsimp only
  split
  · rfl
  · rw [hk]
    rfl

namespace Lexeme

/-- The lexeme is read back from its text, and a value that it stands for shows that text. -/
structure IsBare (l : Lexeme) : Prop where
  readBack : Token.lexemes? l.text = some [l]
  shows : ∀ v, l.literal? = some v → v.text = l.text

theorem isBare_keyword (k : Keyword) : IsBare (keyword k) where
  readBack := by
    have hplain : Name.isPlain k.text := by cases k <;> decide
    have hread := Token.lexemes?_word_end hplain
    rw [ofWord_keyword] at hread
    exact hread
  shows := by cases k <;> rintro v ⟨⟩ <;> decide

theorem isBare_operator (o : Operator) : IsBare (operator o) where
  readBack := by cases o <;> decide +kernel
  shows := nofun

theorem isBare_mark (m : Mark) : IsBare (mark m) := ⟨Token.lexemes?_mark_end m, nofun⟩

/-! ## Words -/

/-- A word that is no number. -/
theorem isBare_wordLexeme {c : Char} {w : Text} (hw : ∀ d ∈ c :: w, Text.isWordChar d)
    (hd : (c :: w).all Text.isAsciiDigit = false) : IsBare (wordLexeme (c :: w)) := by
  have hc : c ≠ '\'' := by
    rintro rfl
    exact absurd (hw _ List.mem_cons_self) (by decide)
  cases hk : Keyword.ofWord? (c :: w) with
  | some k =>
    rw [wordLexeme, hk]
    exact isBare_keyword k
  | none =>
    have hplain : Name.isPlain (c :: w) := Name.isPlain_iff.2 ⟨List.cons_ne_nil _ _, hw⟩
    have hidentifier : wordLexeme (c :: w) = identifier (c :: w) := by rw [wordLexeme, hk]
    have hword : ofWord (c :: w) = identifier (c :: w) := by
      rw [ofWord, if_neg (by simp [hd]), hidentifier]
    have hread := Token.lexemes?_word_end hplain
    rw [hword] at hread
    rw [hidentifier]
    refine ⟨hread, ?_⟩
    rintro v ⟨⟩
    exact Value.ofLiteral_text hc hk

/-! ## Numbers -/

section Numbers

variable {c : Char} {w : Text} (rest : Text)

theorem fraction_eq : fraction rest = [] ∨
    ∃ ds : Text, ds ≠ [] ∧ (∀ d ∈ ds, Text.isDigitMark d) ∧ fraction rest = '.' :: ds := by
  unfold fraction
  split
  · next t =>
    dsimp only
    split
    · exact .inl rfl
    · next h => exact .inr ⟨_, by simpa using h, List.all_eq_true.1 List.all_takeWhile, rfl⟩
  · exact .inl rfl

theorem fraction_fraction : fraction (fraction rest) = fraction rest := by
  obtain h | ⟨ds, hne, hds, h⟩ := fraction_eq rest
  · rw [h]
    rfl
  · have hrun : ds.takeWhile Text.isDigitMark = ds := List.takeWhile_eq_self_iff.2 hds
    rw [h, fraction, hrun, if_neg (by simpa using hne)]

theorem takeWhile_fraction : (fraction rest).takeWhile Text.isWordChar = [] := by
  obtain h | ⟨ds, -, -, h⟩ := fraction_eq rest <;> rw [h]
  · rfl
  · exact List.takeWhile_cons_of_neg (by decide)

theorem takeWhile_append_fraction (hw : ∀ d ∈ w, Text.isWordChar d) :
    (w ++ fraction rest).takeWhile Text.isWordChar = w := by
  rw [List.takeWhile_append_of_pos hw, takeWhile_fraction, List.append_nil]

/-- Nothing touches a fraction that ends the text. -/
theorem readNumber_fraction (position : Nat) (read : Text) :
    readNumber position read (fraction rest) =
      .ok (.number (read ++ fraction rest), (fraction rest).length) := by
  rw [readNumber, fraction_fraction, List.drop_length]
  simp [startsWord]

theorem read_signed (hc : c = '+' ∨ c = '-') (hne : w ≠ [])
    (hd : ∀ d ∈ w, Text.isAsciiDigit d) : read 1 c (w ++ fraction rest) =
      .ok (.number (c :: w ++ fraction rest), (w ++ fraction rest).length) := by
  have hquote : c ≠ '\'' := by rintro rfl; simp at hc
  have hword : ∀ d ∈ w, Text.isWordChar d := fun d h => Text.isWordChar_of_isAsciiDigit (hd d h)
  have hstart : startsDigit (w ++ fraction rest) := by
    obtain ⟨d, w, rfl⟩ := List.exists_cons_of_ne_nil hne
    exact Text.isDigitMark_of_isDecimal (Text.isDecimal_of_isAsciiDigit (hd d List.mem_cons_self))
  have hall : (!w.isEmpty && w.all Text.isAsciiDigit) = true := by
    simpa [hne] using hd
  rw [read, if_neg hquote, if_pos ⟨hc, hstart⟩, readSigned, takeWhile_append_fraction rest hword]
  dsimp only
  rw [if_pos hall, List.drop_left, readNumber_fraction]
  simp [Except.map]

theorem read_unsigned (hd : ∀ d ∈ c :: w, Text.isAsciiDigit d) :
    read 1 c (w ++ fraction rest) =
      .ok (.number (c :: w ++ fraction rest), (w ++ fraction rest).length) := by
  have hword : ∀ d ∈ c :: w, Text.isWordChar d :=
    fun d h => Text.isWordChar_of_isAsciiDigit (hd d h)
  obtain ⟨hc, hw⟩ := List.forall_mem_cons.1 hword
  have hquote : c ≠ '\'' := by rintro rfl; exact absurd hc (by decide)
  have hsign : ¬ ((c = '+' ∨ c = '-') ∧ startsDigit (w ++ fraction rest)) := by
    rintro ⟨rfl | rfl, -⟩ <;> exact absurd hc (by decide)
  have hall : (c :: w).all Text.isAsciiDigit = true := List.all_eq_true.2 hd
  rw [read, if_neg hquote, if_neg hsign, if_pos hc, readWord, takeWhile_append_fraction rest hw]
  dsimp only
  rw [if_pos hall, List.drop_left, readNumber_fraction]
  simp [Except.map]

/-- A number that takes a text up to its end. -/
theorem isBare_number {t : Text} (hc : c ≠ '\'') (hblank : Text.isBlank c = false)
    (hk : Keyword.ofWord? (c :: t) = none)
    (h : read 1 c t = .ok (.number (c :: t), t.length)) : IsBare (.number (c :: t)) where
  readBack := by
    rw [text, Token.lexemes?_cons hblank 1, h]
    change (Token.lexemes? (t.drop t.length)).map _ = _
    rw [List.drop_length, Token.lexemes?_nil]
    rfl
  shows := by
    rintro v ⟨⟩
    exact Value.ofLiteral_text hc hk

theorem isBare_signed (hc : c = '+' ∨ c = '-') (hne : w ≠ [])
    (hd : ∀ d ∈ w, Text.isAsciiDigit d) : IsBare (.number (c :: (w ++ fraction rest))) := by
  refine isBare_number ?_ ?_ (Keyword.ofWord?_of_head ?_ ?_ _) (read_signed rest hc hne hd)
  all_goals obtain rfl | rfl := hc <;> decide

theorem isBare_unsigned (hd : ∀ d ∈ c :: w, Text.isAsciiDigit d) :
    IsBare (.number (c :: (w ++ fraction rest))) := by
  have hc := hd c List.mem_cons_self
  have hword := Text.isWordChar_of_isAsciiDigit hc
  have hquote : c ≠ '\'' := by rintro rfl; exact absurd hc (by decide)
  exact isBare_number hquote (Text.not_isBlank_of_isWordChar hword) (Keyword.ofWord?_of_digit hc _)
    (read_unsigned rest hd)

end Numbers

/-- Every lexeme that is read is bare unless it is quoted. -/
theorem read_bare (position : Nat) {c : Char} (hc : c ≠ '\'') (rest : Text) :
    (read position c rest).Gives (fun r => r.1.IsBare) fun _ => True := by
  rw [read, if_neg hc]
  split
  · next hsign =>
    unfold readSigned
    dsimp only
    split
    · next hrun =>
      have hrun : rest.takeWhile Text.isWordChar ≠ [] ∧
          ∀ d ∈ rest.takeWhile Text.isWordChar, Text.isAsciiDigit d := by simpa using hrun
      refine Except.gives_map.2 ?_
      unfold readNumber
      dsimp only
      split
      · trivial
      · exact isBare_signed _ hsign.1 hrun.1 hrun.2
    · trivial
  split
  · next hword =>
    have hword : ∀ d ∈ c :: rest.takeWhile Text.isWordChar, Text.isWordChar d :=
      List.forall_mem_cons.2 ⟨hword, List.all_eq_true.1 List.all_takeWhile⟩
    unfold readWord
    dsimp only
    split
    · next hrun =>
      refine Except.gives_map.2 ?_
      unfold readNumber
      dsimp only
      split
      · trivial
      · exact isBare_unsigned _ (List.all_eq_true.1 hrun)
    · next hrun => exact isBare_wordLexeme hword (by simpa using hrun)
  · unfold readSign
    dsimp only
    split
    all_goals first
      | exact isBare_mark _
      | trivial
      | (split <;> first | exact isBare_operator _ | trivial)

end Lexeme

/-- The tokens of a text without quotes are bare. -/
theorem Token.scan_bare {t : Text} (hq : '\'' ∉ t) {ts : List Token} (h : scan t = .ok ts) :
    ∀ k ∈ ts, k.lexeme.IsBare := by
  refine (scan_gives fun position c rest hsuffix => Lexeme.read_bare position ?_ rest).of_ok h
  rintro rfl
  exact hq (hsuffix.subset List.mem_cons_self)

end Tabular
