import Tabular.Number.Numeral
import Tabular.Number.Shortest
import Tabular.Text.Utf8

/-!
# JSON

Values of JSON and their text. Numbers without a fraction or exponent are integers of any size, all
others doubles; what is no number has a value of its own. Members keep their order, and of members
with one name the last counts.
-/

namespace Tabular

inductive Json where
  | null
  | bool (b : Bool)
  | integer (n : Int)
  | double (x : Binary64)
  | notNumber
  | string (t : Text)
  | array (items : List Json)
  | object (members : List (Text × Json))

namespace Json

/-- The member of a name. -/
def member? (members : List (Text × Json)) (name : Text) : Option Json :=
  (members.reverse.find? (·.1 == name)).map (·.2)

/-- A number of at most 32 bits in four hexadecimal digits for each half that is used. -/
def escapeCode (n : Nat) : Text :=
  if n < 0x10000 then ['\\', 'u'] ++ Text.hex 4 n
  else
    let m := n - 0x10000
    ['\\', 'u'] ++ Text.hex 4 (0xD800 + m / 0x400) ++ ['\\', 'u'] ++ Text.hex 4 (0xDC00 + m % 0x400)

/-- A character inside a string; all but printable ASCII is escaped. -/
def escape (c : Char) : Text :=
  if c = '\x22' then ['\\', '\x22']
  else if c = '\\' then ['\\', '\\']
  else if c = '\n' then ['\\', 'n']
  else if c = '\r' then ['\\', 'r']
  else if c = '\t' then ['\\', 't']
  else if 0x20 ≤ c.toNat && c.toNat < 0x7F then [c]
  else escapeCode c.toNat

def quote (t : Text) : Text := ['\x22'] ++ t.flatMap escape ++ ['\x22']

/-- A double, or the word for an infinite one. -/
def doubleText (x : Binary64) : Text :=
  if x.isFinite then x.text
  else (if x.negative then ['-'] else []) ++ ['I', 'n', 'f', 'i', 'n', 'i', 't', 'y']

mutual

/-- The text of a value, without blanks. -/
def text : Json → Text
  | null => ['n', 'u', 'l', 'l']
  | bool true => ['t', 'r', 'u', 'e']
  | bool false => ['f', 'a', 'l', 's', 'e']
  | integer n => Text.ofInt n
  | double x => doubleText x
  | notNumber => ['N', 'a', 'N']
  | string t => quote t
  | array items => ['['] ++ Text.join [','] (itemTexts items) ++ [']']
  | object members => ['{'] ++ Text.join [','] (memberTexts members) ++ ['}']

def itemTexts : List Json → List Text
  | [] => []
  | v :: vs => text v :: itemTexts vs

def memberTexts : List (Text × Json) → List Text
  | [] => []
  | (name, v) :: rest => (quote name ++ [':'] ++ text v) :: memberTexts rest

end

end Json

end Tabular
