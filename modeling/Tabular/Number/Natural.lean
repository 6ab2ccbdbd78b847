import Tabular.Text.Digit
import Tabular.Text.Quoted

/-!
# Natural numbers as text

The decimal text of a natural number, and the number that digits denote. Digits of any script are
read; ASCII digits are written, the first of them zero only for the number zero. Conversions
between integers and texts of more than 4300 digits are refused.
-/

namespace Tabular

/-- Why a text is not taken for a number, or a number not written. -/
inductive NumberFault where
  | tooManyDigits (count : Nat)
  | tooLargeToWrite
  | notNumber (t : Text)
  | notInteger (t : Text)
  | notDouble (t : Text)
  | truthValue
  deriving DecidableEq, Repr

namespace Text

/-- The most digits an integer is read from or written with. -/
def digitLimit : Nat := 4300

/-- The decimal text of a number. -/
def ofNat (n : Nat) : Text := Nat.toDigits 10 n

/-- The number that digits denote after `n` has been read. -/
def digitsAfter (n : Nat) : Text → Nat
  | [] => n
  | c :: rest => digitsAfter (n * 10 + (digitValue? c).getD 0) rest

/-- The number that digits denote. -/
def toNat (t : Text) : Nat := digitsAfter 0 t

/-- The decimal text of a number that is not too large. -/
def ofNatWithin (n : Nat) : Except NumberFault Text :=
  if digitLimit < (ofNat n).length then .error .tooLargeToWrite else .ok (ofNat n)

/-- The number that digits denote, if there are not too many. -/
def toNatWithin (t : Text) : Except NumberFault Nat :=
  if digitLimit < t.length then .error (.tooManyDigits t.length) else .ok (toNat t)

/-- The decimal text of an integer. -/
def ofInt : Int → Text
  | .ofNat n => ofNat n
  | .negSucc n => '-' :: ofNat (n + 1)

@[simp] theorem digitsAfter_nil (n : Nat) : digitsAfter n [] = n := rfl
@[simp] theorem digitsAfter_cons (n : Nat) (c : Char) (t : Text) :
    digitsAfter n (c :: t) = digitsAfter (n * 10 + (digitValue? c).getD 0) t := rfl

theorem digitsAfter_append (n : Nat) (s t : Text) :
    digitsAfter n (s ++ t) = digitsAfter (digitsAfter n s) t := by
  induction s generalizing n with
  | nil => rfl
  | cons c s ih => simp [ih]

example : ofNat 0 = ['0'] ∧ toNat ['0', '0', '7', '٣'] = 73 := by decide

end Text

def NumberFault.message : NumberFault → Message
  | .tooManyDigits n =>
    ["Exceeds the limit (4300 digits) for integer string conversion: value has ", Text.ofNat n,
      " digits; use sys.set_int_max_str_digits() to increase the limit"]
  | .tooLargeToWrite =>
    ["Exceeds the limit (4300 digits) for integer string conversion; ",
      "use sys.set_int_max_str_digits() to increase the limit"]
  | .notNumber t => ["Not a number: ", Text.quoted t]
  | .notInteger t => ["invalid literal for int() with base 10: ", Text.quoted t]
  | .notDouble t => ["could not convert string to float: ", Text.quoted t]
  | .truthValue => ["Booleans are not numbers"]

end Tabular
