import Tabular.Proofs.Statement.LetterCase
import Tabular.Proofs.Token.Words

/-!
# Composed commands

Commands that are put together from the names of databases and tables and from texts. They are read
as what they were put together from, whatever characters the texts have, but for single quotes.
-/

namespace Tabular

theorem Text.trim_eq_self {t : Text} (hfirst : ∀ c ∈ t.head?, isBlank c = false)
    (hlast : ∀ c ∈ t.getLast?, isBlank c = false) : trim t = t := by
  have hkeep : ∀ u : Text, (∀ c ∈ u.head?, isBlank c = false) → u.dropWhile isBlank = u := by
    intro u hu
    cases u with
    | nil => rfl
    | cons c u => exact List.dropWhile_cons_of_neg (by simp [hu c rfl])
  rw [trim, trimBy, hkeep t hfirst, hkeep t.reverse (by simpa using hlast), List.reverse_reverse]

/-- A word that is no keyword names something. -/
theorem Lexeme.name?_ofWord {w : Text} (h : Name.isKeyword w = false) :
    (ofWord w).name? = some w := by
  unfold ofWord
  split
  · next hall => exact if_pos hall
  · have hk : Keyword.ofWord? w = none := by simpa [Name.isKeyword] using h
    rw [wordLexeme, hk]
    rfl

namespace Statement

/-- `INSERT INTO t VALUES ('s', …);` -/
def insertCommand (t : Text) (texts : List Text) : Text :=
  Keyword.INSERT.text ++ [' '] ++ Keyword.INTO.text ++ [' '] ++ t ++ [' '] ++ Keyword.VALUES.text ++
    [' ', '('] ++ Text.join [',', ' '] (texts.map fun s => ['\''] ++ s ++ ['\'']) ++ [')', ';']

/-- `SELECT * FROM t;` -/
def selectCommand (t : Text) : Text :=
  Keyword.SELECT.text ++ [' ', '*', ' '] ++ Keyword.FROM.text ++ [' '] ++ t ++ [';']

/-- `USE x;` -/
def useCommand (x : Text) : Text := Keyword.USE.text ++ [' '] ++ x ++ [';']

section Composed

variable {body t x s : Text} {texts : List Text} {ls : List Lexeme}

/-- A semicolon ends a command. -/
theorem lexemes?_concat (hfirst : ∃ c rest, body = c :: rest ∧ Text.isBlank c = false)
    (hlast : ∃ front c, body = front ++ [c] ∧ Text.isBlank c = false)
    (h : Token.lexemes? body = some ls) : lexemes? (body ++ [';']) = some ls := by
  have hbody : commandBody (body ++ [';']) = .ok body := by
    obtain ⟨c, rest, hc, hblank⟩ := hfirst
    obtain ⟨front, d, hd, hblank'⟩ := hlast
    refine commandBody_eq_ok_iff.2 ⟨by simp [hc], body, Text.trim_eq_self ?_ ?_,
      Text.trim_eq_self ?_ ?_⟩
    · simp [hc, hblank]
    · simp only [List.getLast?_concat, Option.mem_some_iff, forall_eq']
      decide
    · simp [hc, hblank]
    · simp [hd, hblank']
  rw [lexemes?, hbody]
  exact h

/-- Quoted texts with commas between them are read as strings. -/
theorem lexemes?_literals (hq : ∀ r ∈ s :: texts, '\'' ∉ r) :
    ∃ ls, Series IsLiteral ls ((s :: texts).map Value.string) ∧ ∀ rest,
      Token.lexemes?
          (Text.join [',', ' '] ((s :: texts).map fun r => ['\''] ++ r ++ ['\'']) ++ rest) =
        (Token.lexemes? rest).map (ls ++ ·) := by
  induction texts generalizing s with
  | nil =>
    refine ⟨[.string s], .one ⟨_, rfl, Lexeme.literal?_string s⟩, fun rest => ?_⟩
    have hjoin : Text.join [',', ' '] ([s].map fun r => ['\''] ++ r ++ ['\'']) =
        (Lexeme.string s).text := by simp [Text.join, Lexeme.text]
    rw [hjoin, Token.lexemes?_quoted (hq s List.mem_cons_self)]
    rfl
  | cons r texts ih =>
    obtain ⟨hs, hrest⟩ := List.forall_mem_cons.1 hq
    obtain ⟨ls, hseries, hread⟩ := ih hrest
    refine ⟨[.string s] ++ .mark .comma :: ls, .more ⟨_, rfl, Lexeme.literal?_string s⟩ hseries,
      fun rest => ?_⟩
    have hjoin : Text.join [',', ' '] ((s :: r :: texts).map fun r => ['\''] ++ r ++ ['\'']) ++ rest =
        (Lexeme.string s).text ++ (Mark.comma.text ++ ' ' ::
          (Text.join [',', ' '] ((r :: texts).map fun r => ['\''] ++ r ++ ['\'']) ++ rest)) := by
      simp [Text.join, Lexeme.text, Mark.text]
    rw [hjoin, Token.lexemes?_quoted hs, Token.lexemes?_mark, Token.lexemes?_blank (by decide), hread]
    simp [Function.comp_def]

/-- So is a row of them. -/
theorem lexemes?_newValues (hq : ∀ s ∈ texts, '\'' ∉ s) :
    ∃ ls, NewValues ls (texts.map Value.string) ∧
      Token.lexemes? (Mark.opening.text ++
        (Text.join [',', ' '] (texts.map fun s => ['\''] ++ s ++ ['\'']) ++ Mark.closing.text)) =
          some ls := by
  cases texts with
  | nil =>
    refine ⟨_, .empty, ?_⟩
    rw [Token.lexemes?_mark]
    exact congrArg (Option.map (.mark .opening :: ·)) (Token.lexemes?_mark_end .closing)
  | cons s texts =>
    obtain ⟨ls, hseries, hread⟩ := lexemes?_literals hq
    refine ⟨_, .listed hseries, ?_⟩
    rw [Token.lexemes?_mark, hread, Token.lexemes?_mark_end]
    rfl

theorem ofCommand_insertCommand (ht : Name.IsWord t) (hk : Name.isKeyword t = false)
    (hq : ∀ s ∈ texts, '\'' ∉ s) :
    ofCommand (insertCommand t texts) = .ok (.insert t (texts.map Value.string)) := by
  obtain ⟨ls, hvalues, hread⟩ := lexemes?_newValues hq
  have htext : insertCommand t texts = (Keyword.INSERT.text ++ ' ' :: (Keyword.INTO.text ++ ' ' ::
      (t ++ ' ' :: (Keyword.VALUES.text ++ ' ' :: (Mark.opening.text ++ (Text.join [',', ' ']
        (texts.map fun s => ['\''] ++ s ++ ['\'']) ++ Mark.closing.text)))))) ++ [';'] := by
    simp [insertCommand, Mark.text]
  have hlexemes : lexemes? (insertCommand t texts) = some (.keyword .INSERT :: .keyword .INTO ::
      Lexeme.ofWord t :: .keyword .VALUES :: ls) := by
    rw [htext]
    refine lexemes?_concat ⟨_, _, rfl, by decide⟩ ⟨Keyword.INSERT.text ++ ' ' ::
      (Keyword.INTO.text ++ ' ' :: (t ++ ' ' :: (Keyword.VALUES.text ++ ' ' ::
        (Mark.opening.text ++ Text.join [',', ' '] (texts.map fun s => ['\''] ++ s ++ ['\'']))))),
      ')', by simp [Mark.text], by decide⟩ ?_
    rw [Token.lexemes?_keyword_blank, Token.lexemes?_keyword_blank,
      Token.lexemes?_word_blank ht.plain, Token.lexemes?_keyword_blank, hread]
    rfl
  have hform := Form.insert (Lexeme.name?_ofWord hk) hvalues
  rw [ht.small] at hform
  exact (ofCommand_eq_ok_iff_lexemes? hlexemes).2 hform

/-- The last character of a word is none that is trimmed. -/
theorem exists_last_of_isPlain (front : Text) (h : Name.isPlain t) :
    ∃ before c, front ++ t = before ++ [c] ∧ Text.isBlank c = false := by
  obtain ⟨hne, hw⟩ := Name.isPlain_iff.1 h
  refine ⟨front ++ t.dropLast, t.getLast hne, ?_,
    Text.not_isBlank_of_isWordChar (hw _ (List.getLast_mem hne))⟩
  rw [List.append_assoc, List.dropLast_append_getLast]

theorem ofCommand_selectCommand (ht : Name.IsWord t) (hk : Name.isKeyword t = false) :
    ofCommand (selectCommand t) = .ok (.select t none none) := by
  have htext : selectCommand t = (Keyword.SELECT.text ++ ' ' :: (Mark.star.text ++ ' ' ::
      (Keyword.FROM.text ++ ' ' :: t))) ++ [';'] := by
    simp [selectCommand, Mark.text]
  have hlexemes : lexemes? (selectCommand t) = some (.keyword .SELECT :: ([.mark .star] ++
      .keyword .FROM :: Lexeme.ofWord t :: [])) := by
    rw [htext]
    refine lexemes?_concat ⟨_, _, rfl, by decide⟩
      (exists_last_of_isPlain (Keyword.SELECT.text ++
      [' ', '*', ' '] ++ Keyword.FROM.text ++ [' ']) ht.plain) ?_
    rw [Token.lexemes?_keyword_blank, Token.lexemes?_mark, Token.lexemes?_blank (by decide),
      Token.lexemes?_keyword_blank, Token.lexemes?_word_end ht.plain]
    rfl
  have hform := Form.select .star (Lexeme.name?_ofWord hk) .left
  rw [ht.small] at hform
  exact (ofCommand_eq_ok_iff_lexemes? hlexemes).2 hform

theorem ofCommand_useCommand (hx : Name.IsWord x) (hk : Name.isKeyword x = false) :
    ofCommand (useCommand x) = .ok (.use x) := by
  have htext : useCommand x = (Keyword.USE.text ++ ' ' :: x) ++ [';'] := by
    simp [useCommand]
  have hlexemes : lexemes? (useCommand x) = some [.keyword .USE, Lexeme.ofWord x] := by
    rw [htext]
    refine lexemes?_concat ⟨_, _, rfl, by decide⟩
      (exists_last_of_isPlain (Keyword.USE.text ++ [' ']) hx.plain) ?_
    rw [Token.lexemes?_keyword_blank, Token.lexemes?_word_end hx.plain]
    rfl
  have hform := Form.use (Lexeme.name?_ofWord hk)
  rw [hx.small] at hform
  exact (ofCommand_eq_ok_iff_lexemes? hlexemes).2 hform

end Composed

end Statement

end Tabular
