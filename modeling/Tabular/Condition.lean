import Tabular.Name
import Tabular.Value

/-!
# Conditions

A condition is a tree of comparisons under AND and OR. Binding it to the columns of a table
resolves every column and checks every literal, whatever the rows are; what comes out tests one
row at a time, from left to right and no further than needed.
-/

namespace Tabular

inductive Connective where
  | and | or
  deriving DecidableEq, Repr

def Connective.text : Connective → Text
  | .and => Keyword.AND.text
  | .or => Keyword.OR.text

inductive Condition where
  | compare (column : Text) (op : Comparator) (literal : Value)
  | group (op : Connective) (operands : List Condition)
  deriving Repr

/-- A test of rows, which may fail on a row. -/
abbrev Predicate := Row → Except Failure Bool

namespace Condition

/-- Does an ordering comparator accept this order of cell and literal? -/
def accepts : Comparator → Ordering → Bool
  | .gt, o => o == .gt
  | .lt, o => o == .lt
  | .ge, o => o != .lt
  | .le, o => o != .gt
  | .eq, _ | .ne, _ | .like, _ => false

/-- The comparison of a cell with a literal. A cell or literal that is null has no order. -/
def test (op : Comparator) (cell literal : Value) : Except Failure Bool :=
  match op with
  | .eq => (cell.equals literal).mapError Failure.number
  | .ne => ((cell.equals literal).map (! ·)).mapError Failure.number
  | .like => .ok (cell.includes literal)
  | .gt | .lt | .ge | .le => do
    match ← cell.compare? literal with
    | some o => return accepts op o
    | none => return false

/-- The tests in order, up to the first that says no. -/
def allOf : List Predicate → Predicate
  | [], _ => .ok true
  | p :: ps, row => do if ← p row then allOf ps row else return false

/-- The tests in order, up to the first that says yes. -/
def anyOf : List Predicate → Predicate
  | [], _ => .ok false
  | p :: ps, row => do if ← p row then return true else anyOf ps row

def combine : Connective → List Predicate → Predicate
  | .and => allOf
  | .or => anyOf

/-- Is the literal one that the comparator can never compare with? -/
def checkLiteral (op : Comparator) (literal : Value) : Except Failure Unit :=
  if op.isOrdering && !literal.isNull then do
    match ← literal.number?.mapError Failure.number with
    | some _ => return ()
    | none => .error (ConditionFault.nonNumericOperand op literal.text)
  else .ok ()

/-- Bind one comparison. -/
def bindCompare (columns : List Text) (column : Text) (op : Comparator) (literal : Value) :
    Except Failure Predicate := do
  let i ← (Name.resolve columns column []).mapError Failure.rejected
  checkLiteral op literal
  return fun row => test op (row.getD i Value.null) literal

mutual

/-- Bind a condition to columns. -/
def bind (columns : List Text) : Condition → Except Failure Predicate
  | compare column op literal => bindCompare columns column op literal
  | group op operands => do return combine op (← bindAll columns operands)

/-- Bind conditions from left to right. -/
def bindAll (columns : List Text) : List Condition → Except Failure (List Predicate)
  | [] => .ok []
  | c :: cs => do
    let p ← bind columns c
    let ps ← bindAll columns cs
    return p :: ps

end

/-- A missing condition accepts every row. -/
def bindOptional (columns : List Text) : Option Condition → Except Failure Predicate
  | none => .ok fun _ => .ok true
  | some c => c.bind columns

mutual

/-- A condition written out, each group in parentheses. -/
def text : Condition → Text
  | compare column op literal => column ++ [' '] ++ op.text ++ [' '] ++ literal.text
  | group op operands =>
    ['('] ++ Text.join ([' '] ++ op.text ++ [' ']) (texts operands) ++ [')']

def texts : List Condition → List Text
  | [] => []
  | c :: cs => text c :: texts cs

end

@[simp] theorem texts_eq_map (cs : List Condition) : texts cs = cs.map text := by
  induction cs with
  | nil => rfl
  | cons c cs ih => simp [texts, ih]

@[simp] theorem allOf_nil (row : Row) : allOf [] row = .ok true := rfl
@[simp] theorem anyOf_nil (row : Row) : anyOf [] row = .ok false := rfl

/-- A group over the operands: one alone is itself. -/
def grouped (op : Connective) : List Condition → Condition
  | [c] => c
  | cs => group op cs

@[simp] theorem grouped_singleton (op : Connective) (c : Condition) : grouped op [c] = c := rfl

end Condition

end Tabular
