import Tabular.Proofs.Except
import Tabular.Proofs.Text.Word
import Tabular.Token.Scan

/-!
# Scanned lexemes

What the lexemes of a scanned text are like: an identifier can be a name, and a number can be one
only if it is made of digits alone, without a sign or a fraction.
-/

namespace Tabular

namespace Text

theorem isWordChar_of_isAsciiDigit {c : Char} (h : isAsciiDigit c) : isWordChar c := by
  simp only [isAsciiDigit, Bool.and_eq_true, decide_eq_true_eq] at h
  simp [isWordChar, wordChars, h.1, h.2]

theorem capital_of_isAsciiDigit {c : Char} (h : isAsciiDigit c) : capital c = c := by
  simp only [isAsciiDigit, Bool.and_eq_true, decide_eq_true_eq] at h
  have hi : c ≠ '\u0131' := by rintro rfl; exact absurd h (by decide)
  have hs : c ≠ '\u017f' := by rintro rfl; exact absurd h (by decide)
  rw [capital, if_neg, if_neg hi, if_neg hs]
  simp only [Bool.and_eq_true, decide_eq_true_eq]
  omega

end Text

/-- No keyword begins with a character that is its own capital, unless it shows it. -/
theorem Keyword.ofWord?_of_head {c : Char} (hc : Text.capital c = c)
    (h : ∀ k ∈ all, k.text.head? ≠ some c) (t : Text) : ofWord? (c :: t) = none := by
  cases hk : ofWord? (c :: t) with
  | none => rfl
  | some k =>
    refine absurd ?_ (h k (mem_all k))
    rw [text_of_ofWord? hk, Text.upper_cons, hc, List.head?_cons]

theorem Keyword.ofWord?_of_digit {c : Char} (h : Text.isAsciiDigit c) (t : Text) :
    ofWord? (c :: t) = none := by
  refine ofWord?_of_head (Text.capital_of_isAsciiDigit h) (fun k _ hk => ?_) t
  have hd : k.text.head?.map Text.isAsciiDigit = some false := by cases k <;> rfl
  rw [hk, Option.map_some, h] at hd
  cases hd

/-- Digits make up a name. -/
theorem Name.isPlain_of_digits {t : Text} (hne : t ≠ []) (h : ∀ c ∈ t, Text.isAsciiDigit c) :
    isPlain t ∧ isKeyword t = false := by
  constructor
  · exact isPlain_iff.2 ⟨hne, fun c hc => Text.isWordChar_of_isAsciiDigit (h c hc)⟩
  · obtain ⟨c, rest, rfl⟩ := List.exists_cons_of_ne_nil hne
    rw [isKeyword, Keyword.ofWord?_of_digit (h c (by simp))]
    rfl

namespace Lexeme

/-- A lexeme as scanning gives it. -/
def IsScanned : Lexeme → Prop
  | identifier t => Name.isPlain t ∧ Name.isKeyword t = false
  | number t => t ≠ [] ∧ (Name.isPlain t → ∀ c ∈ t, Text.isAsciiDigit c)
  | keyword _ | string _ | operator _ | mark _ => True

abbrev ReadsScanned (x : Except CommandFault (Lexeme × Nat)) : Prop :=
  x.Gives (fun r => r.1.IsScanned) fun _ => True

theorem point_mem_fraction {t : Text} (h : fraction t ≠ []) : '.' ∈ fraction t := by
  unfold fraction at h ⊢
  split
  · dsimp only at h ⊢
    split
    · simp_all
    · simp
  · simp_all

/-- A number is scanned if what was read before its fraction is all digits, or no plain word. -/
theorem readNumber_scanned (position : Nat) {read : Text} (rest : Text) (hne : read ≠ [])
    (h : Name.isPlain read → ∀ c ∈ read, Text.isAsciiDigit c) :
    ReadsScanned (readNumber position read rest) := by
  unfold readNumber
  dsimp only
  split
  · trivial
  · refine ⟨by simp [hne], fun hp => ?_⟩
    have hf : fraction rest = [] := by
      by_contra hf
      have hpoint := List.mem_append_right read (point_mem_fraction hf)
      exact absurd ((Name.isPlain_iff.1 hp).2 '.' hpoint) (by decide)
    rw [hf, List.append_nil] at hp ⊢
    exact h hp

theorem wordLexeme_scanned {word : Text} (h : Name.isPlain word) : (wordLexeme word).IsScanned := by
  unfold wordLexeme
  split
  · trivial
  · next hk => exact ⟨h, by rw [Name.isKeyword, hk]; rfl⟩

theorem read_scanned (position : Nat) (c : Char) (rest : Text) :
    ReadsScanned (read position c rest) := by
  unfold read
  split
  · unfold readQuoted
    dsimp only
    split <;> trivial
  split
  · next hsign =>
    unfold readSigned
    dsimp only
    split
    · -- The sign is no character of a word.
      refine Except.gives_map.2 (readNumber_scanned _ _ (by simp) fun hp => ?_)
      have hc := (Name.isPlain_iff.1 hp).2 c List.mem_cons_self
      obtain ⟨rfl | rfl, -⟩ := hsign <;> exact absurd hc (by decide)
    · trivial
  split
  · next hc =>
    have hword : ∀ d ∈ c :: rest.takeWhile Text.isWordChar, Text.isWordChar d :=
      List.forall_mem_cons.2 ⟨hc, List.all_eq_true.1 List.all_takeWhile⟩
    unfold readWord
    dsimp only
    split
    · next hall =>
      exact Except.gives_map.2 (readNumber_scanned _ _ (by simp) fun _ => by simpa using hall)
    · exact wordLexeme_scanned (Name.isPlain_iff.2 ⟨List.cons_ne_nil _ _, hword⟩)
  · unfold readSign
    dsimp only
    split
    all_goals first | trivial | (split <;> trivial)

end Lexeme

namespace Token

/-- What reading gives at each place of a text it gives for all tokens of the text. -/
theorem scanFrom_gives {P : Lexeme → Prop} {E : CommandFault → Prop} {whole : Text}
    (h : ∀ position c rest, (c :: rest) <:+ whole →
      (Lexeme.read position c rest).Gives (fun r => P r.1) E)
    (position : Nat) {t : Text} (ht : t <:+ whole) :
    (scanFrom position t).Gives (fun ts => ∀ k ∈ ts, P k.lexeme) E := by
  induction hn : t.length using Nat.strongRecOn generalizing t position with
  | ind n ih =>
    subst hn
    cases t with
    | nil =>
      rw [scanFrom_nil]
      exact nofun
    | cons c rest =>
      have hrest : rest <:+ whole := (List.suffix_cons c rest).trans ht
      rw [scanFrom]
      split
      · exact ih rest.length (by simp) _ hrest rfl
      · have hread := h position c rest ht
        cases hl : Lexeme.read position c rest with
        | error e => exact hread.of_error hl
        | ok r =>
          obtain ⟨l, n⟩ := r
          have hdrop : (rest.drop n).length < (c :: rest).length := by
            simp only [List.length_drop, List.length_cons]
            omega
          have hgives := ih _ hdrop (position + 1 + n) ((List.drop_suffix n rest).trans hrest) rfl
          refine Except.gives_map.2 (hgives.mono (fun ts hts => ?_) fun _ he => he)
          exact List.forall_mem_cons.2 ⟨hread.of_ok hl, hts⟩

theorem scan_gives {P : Lexeme → Prop} {E : CommandFault → Prop} {t : Text}
    (h : ∀ position c rest, (c :: rest) <:+ t →
      (Lexeme.read position c rest).Gives (fun r => P r.1) E) :
    (scan t).Gives (fun ts => ∀ k ∈ ts, P k.lexeme) E := scanFrom_gives h 1 List.suffix_rfl

theorem scan_scanned {t : Text} {ts : List Token} (h : scan t = .ok ts) :
    ∀ k ∈ ts, k.lexeme.IsScanned :=
  (scan_gives fun position c rest _ => Lexeme.read_scanned position c rest).of_ok h

end Token

end Tabular
