import Tabular.Failure

/-!
# Tokens

The words and signs of a statement. The text of a lexeme is the stretch of the statement that it
covers, but for keywords, which are shown in capitals.
-/

namespace Tabular

/-- The operators of the language: the comparators written with signs, and assignment. -/
inductive Operator where
  | eq | ne | ge | le | lt | gt | assign
  deriving DecidableEq, Repr

namespace Operator

def text : Operator → Text
  | eq => ['=', '=']
  | ne => ['!', '=']
  | ge => ['>', '=']
  | le => ['<', '=']
  | lt => ['<']
  | gt => ['>']
  | assign => ['=']

def comparator? : Operator → Option Comparator
  | eq => some .eq
  | ne => some .ne
  | ge => some .ge
  | le => some .le
  | lt => some .lt
  | gt => some .gt
  | assign => none

end Operator

/-- The single characters that order a statement. -/
inductive Mark where
  | opening | closing | comma | star
  deriving DecidableEq, Repr

def Mark.text : Mark → Text
  | opening => ['(']
  | closing => [')']
  | comma => [',']
  | star => ['*']

inductive Lexeme where
  | keyword (k : Keyword)
  | identifier (t : Text)
  | number (t : Text)
  | string (inner : Text)
  | operator (o : Operator)
  | mark (m : Mark)
  deriving DecidableEq, Repr

def Lexeme.text : Lexeme → Text
  | keyword k => k.text
  | identifier t => t
  | number t => t
  | string inner => ['\''] ++ inner ++ ['\'']
  | operator o => o.text
  | mark m => m.text

/-- A lexeme and its place, counted in characters from one. -/
structure Token where
  lexeme : Lexeme
  position : Nat
  deriving DecidableEq, Repr

namespace Token

def text (t : Token) : Text := t.lexeme.text

def found (t : Token) : Found := .token t.text t.position

/-- What stands at the front of tokens. -/
def foundIn : List Token → Found
  | [] => .endOfCommand
  | t :: _ => t.found

end Token

end Tabular
