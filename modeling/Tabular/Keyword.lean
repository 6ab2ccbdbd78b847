import Tabular.Text.LetterCase

/-!
# Keywords

The words that the command language reserves, in any letter case.
-/

namespace Tabular

inductive Keyword where
  | USE | CREATE | DATABASE | TABLE | DROP | ALTER | ADD | COLUMN | INSERT | INTO | VALUES
  | SELECT | FROM | WHERE | UPDATE | SET | DELETE | JOIN | ON | AND | OR | LIKE | TRUE | FALSE
  | NULL
  deriving DecidableEq, Repr

namespace Keyword

def text : Keyword → Text
  | USE => ['U', 'S', 'E']
  | CREATE => ['C', 'R', 'E', 'A', 'T', 'E']
  | DATABASE => ['D', 'A', 'T', 'A', 'B', 'A', 'S', 'E']
  | TABLE => ['T', 'A', 'B', 'L', 'E']
  | DROP => ['D', 'R', 'O', 'P']
  | ALTER => ['A', 'L', 'T', 'E', 'R']
  | ADD => ['A', 'D', 'D']
  | COLUMN => ['C', 'O', 'L', 'U', 'M', 'N']
  | INSERT => ['I', 'N', 'S', 'E', 'R', 'T']
  | INTO => ['I', 'N', 'T', 'O']
  | VALUES => ['V', 'A', 'L', 'U', 'E', 'S']
  | SELECT => ['S', 'E', 'L', 'E', 'C', 'T']
  | FROM => ['F', 'R', 'O', 'M']
  | WHERE => ['W', 'H', 'E', 'R', 'E']
  | UPDATE => ['U', 'P', 'D', 'A', 'T', 'E']
  | SET => ['S', 'E', 'T']
  | DELETE => ['D', 'E', 'L', 'E', 'T', 'E']
  | JOIN => ['J', 'O', 'I', 'N']
  | ON => ['O', 'N']
  | AND => ['A', 'N', 'D']
  | OR => ['O', 'R']
  | LIKE => ['L', 'I', 'K', 'E']
  | TRUE => ['T', 'R', 'U', 'E']
  | FALSE => ['F', 'A', 'L', 'S', 'E']
  | NULL => ['N', 'U', 'L', 'L']

def all : List Keyword :=
  [USE, CREATE, DATABASE, TABLE, DROP, ALTER, ADD, COLUMN, INSERT, INTO, VALUES, SELECT, FROM,
    WHERE, UPDATE, SET, DELETE, JOIN, ON, AND, OR, LIKE, TRUE, FALSE, NULL]

theorem mem_all (k : Keyword) : k ∈ all := by cases k <;> decide

/-- The keyword that a word spells in any letter case. -/
def ofWord? (word : Text) : Option Keyword :=
  all.find? fun k => k.text == Text.upper word

@[simp] theorem ofWord?_text (k : Keyword) : ofWord? k.text = some k := by cases k <;> decide

theorem text_of_ofWord? {word : Text} {k : Keyword} (h : ofWord? word = some k) :
    k.text = Text.upper word := by
  simpa using List.find?_some h

end Keyword

end Tabular
