import Tabular.Text.Printable

/-!
# Quoted text

How a message shows a text it does not trust: between quotes, with the quote, the backslash and
every unprintable character escaped, so that a quoted text is one printable line.
-/

namespace Tabular.Text

/-- A hexadecimal digit, a to f small. -/
def hexDigit (n : Nat) : Char := Char.ofNat (if n < 10 then 0x30 + n else 0x57 + n)

/-- The value of a hexadecimal digit, given by its code. -/
def hexValue? (code : Nat) : Option Nat :=
  if 0x30 ≤ code && code ≤ 0x39 then some (code - 0x30)
  else if 0x41 ≤ code && code ≤ 0x46 then some (code - 0x37)
  else if 0x61 ≤ code && code ≤ 0x66 then some (code - 0x57)
  else none

/-- The last `width` hexadecimal digits of a number. -/
def hex : (width : Nat) → Nat → Text
  | 0, _ => []
  | width + 1, n => hex width (n / 16) ++ [hexDigit (n % 16)]

/-- Double quotes for a text that holds a single quote and no double one; else single quotes. -/
def quoteFor (t : Text) : Char :=
  if t.elem '\'' && !t.elem '\x22' then '\x22' else '\''

/-- A character inside quotes of the given kind. -/
def escape (quote c : Char) : Text :=
  if c = '\\' then ['\\', '\\']
  else if c = quote then ['\\', quote]
  else if c = '\t' then ['\\', 't']
  else if c = '\n' then ['\\', 'n']
  else if c = '\r' then ['\\', 'r']
  else if isPrintable c then [c]
  else if c.toNat < 0x100 then ['\\', 'x'] ++ hex 2 c.toNat
  else if c.toNat < 0x10000 then ['\\', 'u'] ++ hex 4 c.toNat
  else ['\\', 'U'] ++ hex 8 c.toNat

/-- The quoted form of a text. -/
def quoted (t : Text) : Text :=
  [quoteFor t] ++ t.flatMap (escape (quoteFor t)) ++ [quoteFor t]

/-- A list of texts, each quoted. -/
def quotedList (ts : List Text) : Text :=
  ['['] ++ join [',', ' '] (ts.map quoted) ++ [']']

theorem hex_length (width n : Nat) : (hex width n).length = width := by
  induction width generalizing n with
  | zero => rfl
  | succ w ih => simp [hex, ih]

example : quoted ['i', 't', '\'', 's', '\t'] = ['\x22', 'i', 't', '\'', 's', '\\', 't', '\x22'] := by decide
example : quoted ['\x7f', '\u200b'] =
    ['\'', '\\', 'x', '7', 'f', '\\', 'u', '2', '0', '0', 'b', '\''] := by decide +kernel

end Tabular.Text
