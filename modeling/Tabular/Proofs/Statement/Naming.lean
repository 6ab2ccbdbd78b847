import Tabular.Proofs.Statement.Composed
import Tabular.Proofs.Token.Spacing

/-!
# Names among tokens

Names are told twice: by the check of names, and by what the tokens of a text are. A valid name is
one token, and of the stretches that the tokens of a text cover, those of identifiers and of numbers
made of digits are the valid names, and those of keywords are the words turned down as keywords.
-/

namespace Tabular

/-! ## Words in any letter case -/

namespace Text

/-- Only a character of a word has a small letter that is one. -/
theorem isWordChar_of_toLower {c : Char} (h : isWordChar c.toLower) : isWordChar c := by
  by_cases hc : 0x41 ≤ c.toNat ∧ c.toNat ≤ 0x5A
  · simp [isWordChar, wordChars, hc.1, hc.2]
  · delta Char.toLower at h
    rwa [dif_neg (mt capitalLetter_iff.1 hc)] at h

theorem SameLetters.isWordChar {s t : Text} (h : SameLetters s t) (ht : ∀ c ∈ t, isWordChar c) :
    ∀ c ∈ s, Text.isWordChar c := by
  intro c hc
  have hmem : c.toLower ∈ t.map Char.toLower := h ▸ List.mem_map_of_mem hc
  obtain ⟨d, hd, hdc⟩ := List.mem_map.1 hmem
  refine isWordChar_of_toLower ?_
  rw [← hdc, toLower_eq_small (ht d hd)]
  exact isWordChar_small (ht d hd)

end Text

namespace Keyword

theorem isPlain_text (k : Keyword) : Name.isPlain k.text := by cases k <;> decide

theorem isPlain_of_sameLetters {k : Keyword} {w : Text} (h : Text.SameLetters w k.text) :
    Name.isPlain w := by
  obtain ⟨hne, hk⟩ := Name.isPlain_iff.1 (isPlain_text k)
  refine Name.isPlain_iff.2 ⟨?_, h.isWordChar hk⟩
  rintro rfl
  exact hne (List.map_eq_nil_iff.1 h.symm)

/-- A word spells a keyword if it differs from it in the case of letters alone. -/
theorem ofWord?_eq_some_iff {k : Keyword} {w : Text} (hw : Name.isPlain w) :
    ofWord? w = some k ↔ Text.SameLetters w k.text := by
  have hchars := (Name.isPlain_iff.1 hw).2
  have hk := (Name.isPlain_iff.1 (isPlain_text k)).2
  constructor
  · intro h
    rw [text_of_ofWord? h]
    exact Text.sameLetters_upper hchars
  · intro h
    have hupper : Text.upper w = Text.upper k.text := by
      rw [← Text.upper_lower hchars, h.lower_eq hchars hk, Text.upper_lower hk]
    rw [ofWord?, hupper]
    exact ofWord?_text k

theorem exists_ofWord? {w : Text} : Name.isKeyword w ↔ ∃ k, ofWord? w = some k :=
  Option.isSome_iff_exists

end Keyword

/-! ## One word -/

/-- A valid name is plain and no keyword. -/
theorem Name.validate_self_iff {kind : String} {n : Text} :
    validate kind n = .ok n ↔ isPlain n ∧ isKeyword n = false := by
  simp [validate_eq_ok_iff]

/-- What the check of names says of a plain word. -/
theorem Name.validate_of_isPlain {kind : String} {n : Text} (h : isPlain n) :
    validate kind n = if isKeyword n then .error (.keywordName kind n) else .ok n := by
  rw [validate, h]
  rfl

theorem Name.validate_of_not_isPlain {kind : String} {n : Text} (h : isPlain n = false) :
    validate kind n = .error (.invalidName kind n) := by
  rw [validate, h]
  rfl

/-- A word by itself is one token. -/
theorem Token.scan_word {w : Text} (hw : Name.isPlain w) :
    scan w = .ok [⟨Lexeme.ofWord w, 1⟩] := by
  obtain ⟨hne, hchars⟩ := Name.isPlain_iff.1 hw
  obtain ⟨c, w, rfl⟩ := List.exists_cons_of_ne_nil hne
  have hblank := Text.not_isBlank_of_isWordChar (hchars c List.mem_cons_self)
  have hread : Lexeme.read 1 c (w ++ []) = .ok (Lexeme.ofWord (c :: w), w.length) :=
    Lexeme.read_word 1 hchars rfl rfl
  rw [List.append_nil] at hread
  rw [scan, scanFrom, if_neg (by simp [hblank]), hread]
  change (scanFrom _ (w.drop w.length)).map _ = _
  rw [List.drop_length, scanFrom_nil]
  rfl

namespace Lexeme

variable {w : Text}

theorem ofWord_of_isKeyword_eq_false (h : Name.isKeyword w = false) :
    ofWord w = .identifier w ∨ ofWord w = .number w := by
  have hk : Keyword.ofWord? w = none := by simpa [Name.isKeyword] using h
  unfold ofWord
  split
  · exact .inr rfl
  · exact .inl (by rw [wordLexeme, hk])

/-- A word is a keyword among tokens exactly if the check of names takes it for one. -/
theorem ofWord_eq_keyword_iff (hw : Name.isPlain w) {k : Keyword} :
    ofWord w = .keyword k ↔ Keyword.ofWord? w = some k := by
  unfold ofWord
  split
  · next hdigits =>
    -- A number is no keyword for the check of names either.
    have hne := (Name.isPlain_iff.1 hw).1
    have hplain := Name.isPlain_of_digits hne (by simpa using hdigits)
    have hk : Keyword.ofWord? w = none := by simpa [Name.isKeyword] using hplain.2
    simp [hk]
  · unfold wordLexeme
    split <;> simp_all

/-! ## The stretches of a text -/

/-- The check of names tells a stretch of text as what the lexeme is that stands there: it accepts
what names something, and turns down keywords as such. -/
structure JudgedAlike (kind : String) (l : Lexeme) (piece : Text) : Prop where
  name : ∀ n, Name.validate kind piece = .ok n ↔ l.name? = some n
  keyword : Name.validate kind piece = .error (.keywordName kind piece) ↔ ∃ k, l = .keyword k

variable {kind : String}

theorem judgedAlike_ofWord (hw : Name.isPlain w) : JudgedAlike kind (ofWord w) w := by
  cases hk : Name.isKeyword w with
  | true =>
    obtain ⟨k, hword⟩ := Keyword.exists_ofWord?.1 hk
    rw [(ofWord_eq_keyword_iff hw).2 hword]
    constructor
    · intro n
      simp [Name.validate_of_isPlain hw, hk, name?]
    · simp [Name.validate_of_isPlain hw, hk]
  | false =>
    have hname := name?_ofWord hk
    constructor
    · intro n
      simp [Name.validate_of_isPlain hw, hk, hname]
    · obtain h | h := ofWord_of_isKeyword_eq_false hk <;> simp [Name.validate_of_isPlain hw, hk, h]

/-- A lexeme whose stretch is no word is neither a name nor a keyword. -/
theorem judgedAlike_of_not_isPlain {l : Lexeme} {piece : Text} (hl : l.IsScanned)
    (hs : l.SpelledAs piece) (hp : Name.isPlain piece = false) : JudgedAlike kind l piece := by
  have hname : l.name? = none := by
    refine Option.eq_none_iff_forall_ne_some.2 fun n hn => ?_
    obtain ⟨ht, hplain, -⟩ := (Statement.Reader.name?_eq_some_iff hl).1 hn
    cases l with
    | identifier t | number t =>
      cases ht
      cases hs
      exact absurd hplain (by simpa [text] using hp)
    | _ => cases hn
  have hkeyword : ∀ k, l ≠ .keyword k := by
    rintro k rfl
    rw [Keyword.isPlain_of_sameLetters hs] at hp
    cases hp
  constructor
  · simp [Name.validate_of_not_isPlain hp, hname]
  · simp [Name.validate_of_not_isPlain hp, hkeyword]

end Lexeme

namespace Token

variable {kind : String} {l : Lexeme} {piece : Text}

/-- A word that is cut out of a text is the lexeme that it is by itself. -/
theorem CutAs.judgedAlike (h : CutAs l piece) : l.JudgedAlike kind piece := by
  cases hp : Name.isPlain piece with
  | true =>
    have hword : some [l] = some [Lexeme.ofWord piece] := h.alone.symm.trans (lexemes?_word_end hp)
    cases hword
    exact Lexeme.judgedAlike_ofWord hp
  | false =>
    obtain ⟨ts, hts, hl⟩ := lexemes?_eq_some_iff.1 h.alone
    obtain ⟨k, rfl, rfl⟩ := List.map_eq_singleton_iff.1 hl
    exact Lexeme.judgedAlike_of_not_isPlain (scan_scanned hts k (by simp)) h.spelled hp

/-- So is the text that the lexeme shows. -/
theorem CutAs.judgedAlike_text (h : CutAs l piece) : l.JudgedAlike kind l.text := by
  cases l with
  | keyword k =>
    have hk : (Lexeme.ofWord k.text).JudgedAlike kind k.text :=
      Lexeme.judgedAlike_ofWord (Keyword.isPlain_text k)
    rwa [Lexeme.ofWord_keyword] at hk
  | _ => exact h.spelled ▸ h.judgedAlike

end Token

end Tabular
