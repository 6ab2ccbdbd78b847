import Tabular.Proofs.Statement.Composed
import Tabular.Proofs.Token.ReadBack

/-!
# Commands that store and find a text

A command that gives a text to a column in every row, and one that asks for the rows with a text in
a column. Like other composed commands they are read as what they were put together from.
-/

namespace Tabular

/-- A word that is no keyword stands for a column in a condition. -/
theorem Lexeme.column?_ofWord {w : Text} (h : Name.isKeyword w = false) :
    (ofWord w).column? = some w := by
  unfold ofWord
  split
  · rfl
  · have hk : Keyword.ofWord? w = none := by simpa [Name.isKeyword] using h
    rw [wordLexeme, hk]
    rfl

namespace Statement

/-- `SELECT * FROM t WHERE a == 's';` -/
def findCommand (t a s : Text) : Text :=
  Keyword.SELECT.text ++ [' ', '*', ' '] ++ Keyword.FROM.text ++ [' '] ++ t ++ [' '] ++
    Keyword.WHERE.text ++ [' '] ++ a ++ [' ', '=', '=', ' ', '\''] ++ s ++ ['\'', ';']

/-- `UPDATE t SET a = 's';` -/
def setCommand (t a s : Text) : Text :=
  Keyword.UPDATE.text ++ [' '] ++ t ++ [' '] ++ Keyword.SET.text ++ [' '] ++ a ++
    [' ', '=', ' ', '\''] ++ s ++ ['\'', ';']

variable {command front t a s : Text} {ks : List Lexeme}

/-- A text in quotes and a semicolon end a command. -/
theorem lexemes?_quoted_concat (htext : command = front ++ ' ' :: (Lexeme.string s).text ++ [';'])
    (hfirst : ∃ c rest, front = c :: rest ∧ Text.isBlank c = false)
    (h : Token.lexemes? front = some ks) (hq : '\'' ∉ s) :
    lexemes? command = some (ks ++ [.string s]) := by
  obtain ⟨c, rest, rfl, hc⟩ := hfirst
  rw [htext]
  refine lexemes?_concat ⟨_, _, rfl, hc⟩
    ⟨c :: rest ++ ' ' :: '\'' :: s, '\'', by simp [Lexeme.text], by decide⟩ ?_
  have hquoted := Token.lexemes?_quoted hq []
  rw [List.append_nil, Token.lexemes?_nil] at hquoted
  exact Token.lexemes?_spaced h hquoted

section Reads

variable (ht : Name.IsWord t) (hkt : Name.isKeyword t = false) (ha : Name.isPlain a)
  (hka : Name.isKeyword a = false) (hq : '\'' ∉ s)
include ht hkt ha hka hq

theorem ofCommand_findCommand :
    ofCommand (findCommand t a s) = .ok (.select t none (some (.compare a .eq (.string s)))) := by
  let front : Text := Keyword.SELECT.text ++ ' ' :: (Mark.star.text ++ ' ' ::
    (Keyword.FROM.text ++ ' ' :: (t ++ ' ' :: (Keyword.WHERE.text ++ ' ' :: (a ++ ' ' ::
      (Lexeme.operator .eq).text)))))
  have htext : findCommand t a s = front ++ ' ' :: (Lexeme.string s).text ++ [';'] := by
    simp [findCommand, front, Mark.text, Lexeme.text, Operator.text]
  have hfront : Token.lexemes? front = some [.keyword .SELECT, .mark .star, .keyword .FROM,
      Lexeme.ofWord t, .keyword .WHERE, Lexeme.ofWord a, .operator .eq] := by
    rw [Token.lexemes?_keyword_blank, Token.lexemes?_mark, Token.lexemes?_blank (by decide),
      Token.lexemes?_keyword_blank, Token.lexemes?_word_blank ht.plain,
      Token.lexemes?_keyword_blank, Token.lexemes?_word_blank ha,
      (Lexeme.isBare_operator .eq).readBack]
    rfl
  have hlexemes := lexemes?_quoted_concat htext ⟨'S', _, rfl, by decide⟩ hfront hq
  have hcolumn := Lexeme.column?_ofWord hka
  have hliteral := Lexeme.literal?_string s
  let compared : Condition.Disjunction := .one (.one (.comparison
    ⟨Lexeme.ofWord a, .operator .eq, .string s, by simp [hcolumn], rfl, by simp [hliteral]⟩))
  have htree : compared.tree = .compare a .eq (.string s) := by
    simp [compared, Condition.Disjunction.tree, Condition.Conjunction.tree, Condition.Primary.tree,
      Condition.Comparison.tree, hcolumn, hliteral, Lexeme.comparator?, Operator.comparator?]
  have hform := Form.select .star (Lexeme.name?_ofWord hkt) (.given compared)
  rw [ht.small, htree] at hform
  exact (ofCommand_eq_ok_iff_lexemes? hlexemes).2 hform

theorem ofCommand_setCommand :
    ofCommand (setCommand t a s) = .ok (.update t [(a, .string s)] none) := by
  let front : Text := Keyword.UPDATE.text ++ ' ' :: (t ++ ' ' :: (Keyword.SET.text ++
    ' ' :: (a ++ ' ' :: (Lexeme.operator .assign).text)))
  have htext : setCommand t a s = front ++ ' ' :: (Lexeme.string s).text ++ [';'] := by
    simp [setCommand, front, Lexeme.text, Operator.text]
  have hfront : Token.lexemes? front = some [.keyword .UPDATE, Lexeme.ofWord t, .keyword .SET,
      Lexeme.ofWord a, .operator .assign] := by
    rw [Token.lexemes?_keyword_blank, Token.lexemes?_word_blank ht.plain,
      Token.lexemes?_keyword_blank, Token.lexemes?_word_blank ha,
      (Lexeme.isBare_operator .assign).readBack]
    rfl
  have hlexemes := lexemes?_quoted_concat htext ⟨'U', _, rfl, by decide⟩ hfront hq
  have hassigns : Assigns [Lexeme.ofWord a, .operator .assign, .string s] (a, .string s) :=
    ⟨_, _, rfl, Lexeme.name?_ofWord hka, Lexeme.literal?_string s⟩
  have hform := Form.update (Lexeme.name?_ofWord hkt) (.one hassigns) .left
  rw [ht.small] at hform
  exact (ofCommand_eq_ok_iff_lexemes? hlexemes).2 hform

end Reads

end Statement

end Tabular
