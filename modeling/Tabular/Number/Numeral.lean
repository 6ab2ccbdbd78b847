import Tabular.Number.Binary64

/-!
# Numerals

A numeral is a text of digits with an optional sign before them and an optional fraction after a
point. Without a point it denotes an integer of any size, with a point a double. Integers and
doubles are compared by their exact values.
-/

namespace Tabular

/-- A numeral taken apart. -/
structure Numeral where
  negative : Bool
  whole : Text
  fraction : Option Text
  deriving DecidableEq, Repr

/-- The numeric meaning of a text. -/
inductive Number where
  | integer (n : Int)
  | double (x : Binary64)
  deriving DecidableEq, Repr

namespace Number

/-- The exact place of a number on the line of units. -/
def place : Number → Binary64.Place
  | integer n => .units (n * Binary64.one)
  | double x => x.place

def compare (a b : Number) : Ordering := a.place.compare b.place

end Number

namespace Numeral

/-- A text without its sign, and whether the sign is a minus. -/
def splitSign : Text → Bool × Text
  | '+' :: t => (false, t)
  | '-' :: t => (true, t)
  | t => (false, t)

/-- Digits, and what stands after them. -/
def spanDigits (t : Text) : Text × Text :=
  (t.takeWhile Text.isDecimal, t.dropWhile Text.isDecimal)

/-- The digits of a fraction: at least one, and nothing else. -/
def fraction? (t : Text) : Option Text :=
  if !t.isEmpty && t.all Text.isDecimal then some t else none

/-- Take a text apart as a numeral. -/
def ofText? (t : Text) : Option Numeral :=
  let (negative, body) := splitSign t
  let (whole, rest) := spanDigits body
  if whole.isEmpty then none
  else match rest with
    | [] => some ⟨negative, whole, none⟩
    | '.' :: tail => (fraction? tail).map fun f => ⟨negative, whole, some f⟩
    | _ => none

/-- Is the text a numeral? -/
def isNumeral (t : Text) : Bool := (ofText? t).isSome

/-- The number that a numeral denotes. -/
def number (n : Numeral) : Except NumberFault Number :=
  match n.fraction with
  | none => do
    let magnitude ← Text.toNatWithin n.whole
    return .integer (if n.negative then -(magnitude : Int) else magnitude)
  | some f =>
    return .double
      (Binary64.ofFraction n.negative (Text.toNat (n.whole ++ f)) (Nat.pow 10 f.length))

/-- Digits between which single underscores may stand, without the underscores; `after` tells
whether a digit stands before the text. -/
def joinDigits? (isDigit : Char → Bool) : (after : Bool) → Text → Option Text
  | after, [] => if after then some [] else none
  | after, c :: t =>
    if c = '_' then if after then joinDigits? isDigit false t else none
    else if isDigit c then (joinDigits? isDigit true t).map (c :: ·)
    else none

/-- The integer that a text spells, with white space around it and underscores between its
digits. -/
def integer? (t : Text) : Option Int :=
  let (negative, body) := splitSign (Text.trimBy Text.isSpace t)
  match (joinDigits? Text.isDecimal false body).map Text.toNatWithin with
  | some (.ok n) => some (if negative then -(n : Int) else n)
  | _ => none

/-- The double of a numeral with a fraction and a decimal exponent. -/
def ofScientific? (t : Text) : Option Binary64 :=
  let mantissa := t.takeWhile (· != 'e')
  let (down, digits) := splitSign ((t.dropWhile (· != 'e')).drop 1)
  match ofText? mantissa, fraction? digits with
  | some ⟨negative, whole, some f⟩, some e =>
    let exponent : Int := if down then -(Text.toNat e : Int) else Text.toNat e
    some (Binary64.ofDecimal negative (Text.toNat (whole ++ f)) (exponent - f.length))
  | _, _ => none

/-- The number that the text of a number denotes: a numeral, or the text of a double that is
written with an exponent. -/
def read (t : Text) : Except NumberFault Number :=
  match ofText? t with
  | some n => n.number
  | none =>
    if t.elem '.' then
      match ofScientific? t with
      | some x => .ok (.double x)
      | none => .error (.notDouble t)
    else .error (.notInteger t)

end Numeral

end Tabular
