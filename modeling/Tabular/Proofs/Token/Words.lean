import Tabular.Proofs.Token.Quoted
import Tabular.Proofs.Token.Scanned

/-!
# Words in a statement

A word is one lexeme if neither a word nor a fraction follows it, and a mark always is one. Blanks
and parentheses divide what stands on their sides.
-/

namespace Tabular

namespace Lexeme

/-- The lexeme that a word is. -/
def ofWord (w : Text) : Lexeme := if w.all Text.isAsciiDigit then .number w else wordLexeme w

@[simp] theorem ofWord_keyword (k : Keyword) : ofWord k.text = .keyword k := by
  cases k <;> decide

theorem read_word {c : Char} {w rest : Text} (position : Nat)
    (hw : ∀ d ∈ c :: w, Text.isWordChar d) (hs : startsWord rest = false)
    (hf : fraction rest = []) : read position c (w ++ rest) = .ok (ofWord (c :: w), w.length) := by
  obtain ⟨hc, hw⟩ := List.forall_mem_cons.1 hw
  have hquote : c ≠ '\'' := by rintro rfl; exact absurd hc (by decide)
  have hsign : ¬ ((c = '+' ∨ c = '-') ∧ startsDigit (w ++ rest)) := by
    rintro ⟨rfl | rfl, -⟩ <;> exact absurd hc (by decide)
  have hrun : (w ++ rest).takeWhile Text.isWordChar = w := by
    have hend : rest.takeWhile Text.isWordChar = [] := by
      cases rest with
      | nil => rfl
      | cons d rest => exact List.takeWhile_cons_of_neg (by simpa [startsWord] using hs)
    rw [List.takeWhile_append_of_pos hw, hend, List.append_nil]
  rw [read, if_neg hquote, if_neg hsign, if_pos hc, readWord, hrun, List.drop_left, readNumber, hf,
    ofWord]
  split
  · simp [Except.map]
  · rfl

theorem divides_blank : Divides ' ' := ⟨by decide, by decide, by decide, by decide⟩

theorem divides_opening : Divides '(' := ⟨by decide, by decide, by decide, by decide⟩

theorem divides_closing : Divides ')' := ⟨by decide, by decide, by decide, by decide⟩

end Lexeme

namespace Token

theorem lexemes?_word {w rest : Text} (hw : Name.isPlain w) (hs : Lexeme.startsWord rest = false)
    (hf : Lexeme.fraction rest = []) :
    lexemes? (w ++ rest) = (lexemes? rest).map (Lexeme.ofWord w :: ·) := by
  obtain ⟨hne, hw⟩ := Name.isPlain_iff.1 hw
  obtain ⟨c, w, rfl⟩ := List.exists_cons_of_ne_nil hne
  have hblank := Text.not_isBlank_of_isWordChar (hw c List.mem_cons_self)
  rw [List.cons_append, lexemes?_cons hblank 1, Lexeme.read_word 1 hw hs hf]
  change (lexemes? ((w ++ rest).drop w.length)).map _ = _
  rw [List.drop_left]

/-- A word before a blank. -/
theorem lexemes?_word_blank {w : Text} (hw : Name.isPlain w) (rest : Text) :
    lexemes? (w ++ ' ' :: rest) = (lexemes? rest).map (Lexeme.ofWord w :: ·) := by
  rw [lexemes?_word hw rfl rfl, lexemes?_blank (by decide)]

/-- A word at the end. -/
theorem lexemes?_word_end {w : Text} (hw : Name.isPlain w) :
    lexemes? w = some [Lexeme.ofWord w] := by
  have h : lexemes? (w ++ []) = (lexemes? []).map (Lexeme.ofWord w :: ·) := lexemes?_word hw rfl rfl
  rwa [List.append_nil, lexemes?_nil] at h

theorem lexemes?_keyword_blank (k : Keyword) (rest : Text) :
    lexemes? (k.text ++ ' ' :: rest) = (lexemes? rest).map (.keyword k :: ·) := by
  rw [lexemes?_word_blank (by cases k <;> decide), Lexeme.ofWord_keyword]

theorem lexemes?_mark (m : Mark) (rest : Text) :
    lexemes? (m.text ++ rest) = (lexemes? rest).map (.mark m :: ·) := by
  cases m <;> exact lexemes?_cons (by decide) 1

theorem lexemes?_mark_end (m : Mark) : lexemes? m.text = some [.mark m] := by
  have h := lexemes?_mark m []
  rwa [List.append_nil, lexemes?_nil] at h

/-- Texts with a blank between them. -/
theorem lexemes?_spaced {t u : Text} {ks ls : List Lexeme} (ht : lexemes? t = some ks)
    (hu : lexemes? u = some ls) : lexemes? (t ++ ' ' :: u) = some (ks ++ ls) := by
  rw [lexemes?_divided Lexeme.divides_blank ht, lexemes?_blank (by decide), hu]
  rfl

/-- A text in parentheses. -/
theorem lexemes?_enclosed {t : Text} {ks : List Lexeme} (ht : lexemes? t = some ks) :
    lexemes? (['('] ++ t ++ [')']) = some (.mark .opening :: (ks ++ [.mark .closing])) := by
  have hclosing : lexemes? (t ++ [')']) = some (ks ++ [.mark .closing]) := by
    rw [lexemes?_divided Lexeme.divides_closing ht]
    exact congrArg (Option.map (ks ++ ·)) (lexemes?_mark_end .closing)
  rw [List.append_assoc]
  refine (lexemes?_mark .opening _).trans ?_
  rw [hclosing]
  rfl

end Token

end Tabular
