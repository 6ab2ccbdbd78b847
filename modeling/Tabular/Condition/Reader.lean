import Tabular.Condition
import Tabular.Token.Scan

/-!
# Reading conditions

Conditions are read one token at a time. The state is what is expected next and a stack of open
groups, the innermost first; a group collects operands of OR, and of the AND at its end. AND binds
tighter than OR, parentheses group, and a connective over a single operand leaves no trace.
-/

namespace Tabular

namespace Lexeme

/-- The value of a lexeme that may stand for one: a string, number or identifier, or TRUE, FALSE
or NULL. -/
def literal? : Lexeme → Option Value
  | string inner => some (Value.ofLiteral (string inner).text)
  | number t => some (Value.ofLiteral t)
  | identifier t => some (Value.ofLiteral t)
  | keyword .TRUE => some (Value.ofLiteral Keyword.TRUE.text)
  | keyword .FALSE => some (Value.ofLiteral Keyword.FALSE.text)
  | keyword .NULL => some (Value.ofLiteral Keyword.NULL.text)
  | keyword _ | operator _ | mark _ => none

end Lexeme

namespace Condition

/-- An open group: finished operands of OR, then finished operands of the AND that is being read,
each list with the last first. -/
structure Frame where
  alternatives : List Condition
  conjuncts : List Condition
  deriving Repr

namespace Frame

def empty : Frame := ⟨[], []⟩

/-- One more operand of AND. -/
def conjoin (f : Frame) (c : Condition) : Frame := ⟨f.alternatives, c :: f.conjuncts⟩

/-- The AND that ends with `c`. -/
def conjunction (f : Frame) (c : Condition) : Condition :=
  grouped .and (f.conjuncts.reverse ++ [c])

/-- One more operand of OR, the AND that ends with `c`. -/
def alternate (f : Frame) (c : Condition) : Frame := ⟨f.conjunction c :: f.alternatives, []⟩

/-- The whole group, whose last operand is `c`. -/
def close (f : Frame) (c : Condition) : Condition :=
  grouped .or (f.alternatives.reverse ++ [f.conjunction c])

end Frame

/-- What the next token has to be. -/
inductive Expecting where
  | operand
  | comparator (column : Text)
  | literal (column : Text) (op : Comparator)
  | connective (last : Condition)
  deriving Repr

/-- Read on from a state: `f` is the innermost group and `outer` the groups around it. Reading ends
before the first token that cannot go on at the outermost level. -/
def readFrom (f : Frame) (outer : List Frame) :
    Expecting → List Token → Except ConditionFault (Condition × List Token)
  | .operand, [] => .error .endsEarly
  | .operand, t :: ts =>
    match t.lexeme with
    | .mark .opening => readFrom .empty (f :: outer) .operand ts
    | .mark .closing => .error .unbalanced
    | .identifier name => readFrom f outer (.comparator name) ts
    | .number name => readFrom f outer (.comparator name) ts
    | _ => .error (.notColumn t.text)
  | .comparator column, [] => .error (.noComparator column)
  | .comparator column, t :: ts =>
    match t.lexeme with
    | .keyword .LIKE => readFrom f outer (.literal column .like) ts
    | .operator o =>
      match o.comparator? with
      | some op => readFrom f outer (.literal column op) ts
      | none => .error (.singleEquals column)
    | _ => .error (.noComparator column)
  | .literal column op, [] => .error (.noLiteral column op)
  | .literal column op, t :: ts =>
    match t.lexeme.literal? with
    | some v => readFrom f outer (.connective (.compare column op v)) ts
    | none => .error (.noLiteral column op)
  | .connective last, [] =>
    match outer with
    | [] => .ok (f.close last, [])
    | _ :: _ => .error .unbalanced
  | .connective last, t :: ts =>
    match t.lexeme, outer with
    | .keyword .AND, outer => readFrom (f.conjoin last) outer .operand ts
    | .keyword .OR, outer => readFrom (f.alternate last) outer .operand ts
    | .mark .closing, g :: outer => readFrom g outer (.connective (f.close last)) ts
    | _, [] => .ok (f.close last, t :: ts)
    | _, _ :: _ => .error .unbalanced

/-- The condition at the front of tokens, and the tokens after it. -/
def read (ts : List Token) : Except ConditionFault (Condition × List Token) :=
  readFrom .empty [] .operand ts

/-- The condition that makes up all of a text. -/
def ofText (t : Text) : Except Rejection Condition := do
  let ts ← (Token.scan t).mapError Rejection.command
  match ← (read ts).mapError Rejection.condition with
  | (c, []) => return c
  | (_, t :: _) => .error (.condition (.trailing t.text))

end Condition

end Tabular
