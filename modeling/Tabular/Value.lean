import Tabular.Failure
import Tabular.Number.Numeral
import Tabular.Number.Shortest

/-!
# Values

A cell holds a kind and the text that is stored and shown. Numeric meaning is taken from the text
when a comparison needs it, and a string spelled like a numeral has it too: once stored, the two
look the same.
-/

namespace Tabular

inductive Kind where
  | number | boolean | string | null
  deriving DecidableEq, Repr

structure Value where
  kind : Kind
  text : Text
  deriving DecidableEq, Repr

/-- The cells of a row; the first is the row's id. -/
abbrev Row := List Value

namespace Value

def null : Value := ⟨.null, Keyword.NULL.text⟩

def boolean (b : Bool) : Value := ⟨.boolean, if b then Keyword.TRUE.text else Keyword.FALSE.text⟩

def string (t : Text) : Value := ⟨.string, t⟩

/-- A number written as a numeral keeps its spelling. -/
def ofNumeral (t : Text) : Except NumberFault Value :=
  if Numeral.isNumeral t then .ok ⟨.number, t⟩ else .error (.notNumber t)

def ofNat (n : Nat) : Except NumberFault Value := (Text.ofNatWithin n).map (⟨.number, ·⟩)

def ofInt : Int → Except NumberFault Value
  | .ofNat n => ofNat n
  | .negSucc n => (Text.ofNatWithin (n + 1)).map fun t => ⟨.number, '-' :: t⟩

/-- A double is written in its shortest text. -/
def ofDouble (x : Binary64) : Value := ⟨.number, x.text⟩

/-- The value that a stored field stands for: the three reserved words as they are written, then
numerals, then any other text. -/
def ofField (t : Text) : Value :=
  if t = Keyword.NULL.text then null
  else if t = Keyword.TRUE.text then boolean true
  else if t = Keyword.FALSE.text then boolean false
  else if Numeral.isNumeral t then ⟨.number, t⟩
  else string t

/-- The text between single quotes, if the text stands in them. -/
def unquote? (t : Text) : Option Text :=
  match t with
  | '\'' :: rest => if rest.getLast? = some '\'' then some rest.dropLast else none
  | _ => none

/-- The value of a literal in a command: quoted text is a string; of the rest, numerals are
numbers, and the reserved words are recognised in any letter case. -/
def ofLiteral (t : Text) : Value :=
  match unquote? t with
  | some inner => string inner
  | none =>
    if Numeral.isNumeral t then ⟨.number, t⟩
    else match Keyword.ofWord? t with
      | some .TRUE => boolean true
      | some .FALSE => boolean false
      | some .NULL => null
      | _ => string t

def isNull (v : Value) : Bool := v.kind == .null

/-- The number that a value stands for in a comparison. -/
def number? (v : Value) : Except NumberFault (Option Number) :=
  match v.kind with
  | .number => (Numeral.read v.text).map some
  | .string =>
    match Numeral.ofText? v.text with
    | some n => n.number.map some
    | none => .ok none
  | .boolean | .null => .ok none

/-- Null equals null alone; two values with numbers are equal as numbers; any others as text. -/
def equals (a b : Value) : Except NumberFault Bool :=
  if a.isNull || b.isNull then .ok (a.isNull && b.isNull)
  else do
    let m ← a.number?
    let n ← b.number?
    match m, n with
    | some m, some n => return m.compare n == .eq
    | _, _ => return a.text == b.text

/-- The order of two numbers; none if either value is null, and a failure if either has no
number, which names the first that has none. -/
def compare? (a b : Value) : Except Failure (Option Ordering) :=
  if a.isNull || b.isNull then .ok none
  else do
    let m ← a.number?.mapError Failure.number
    let n ← b.number?.mapError Failure.number
    match m, n with
    | some m, some n => return some (m.compare n)
    | none, _ => .error (ConditionFault.unordered a.text)
    | some _, none => .error (ConditionFault.unordered b.text)

/-- Does the text of `b` stand somewhere in the text of `a`? Null neither contains nor is
contained. -/
def includes (a b : Value) : Bool := !a.isNull && !b.isNull && a.text.includes b.text

@[simp] theorem string_text (t : Text) : (string t).text = t := rfl
@[simp] theorem string_kind (t : Text) : (string t).kind = .string := rfl
@[simp] theorem isNull_null : null.isNull = true := rfl
@[simp] theorem isNull_string (t : Text) : (string t).isNull = false := rfl
@[simp] theorem isNull_boolean (b : Bool) : (boolean b).isNull = false := rfl

@[simp] theorem ofField_text (t : Text) : (ofField t).text = t := by
  unfold ofField
  split
  · next h => exact h.symm
  split
  · next h => exact h.symm
  split
  · next h => exact h.symm
  split <;> rfl

/-- What a field stands for depends on its text alone, so storing it twice changes nothing. -/
theorem ofField_ofField_text (t : Text) : ofField (ofField t).text = ofField t := by simp

end Value

end Tabular
