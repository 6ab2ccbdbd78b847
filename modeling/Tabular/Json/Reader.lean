import Tabular.Json

/-!
# Reading JSON

A text is cut into tokens, and the tokens are put together by a machine that knows what it expects
next and which arrays and objects are open, the innermost first.
-/

namespace Tabular.Json

/-- An array or an object as a pair of brackets. -/
inductive Bracket where
  | square | curly
  deriving DecidableEq, Repr

inductive Token where
  | opening (b : Bracket)
  | closing (b : Bracket)
  | comma
  | colon
  | scalar (v : Json)

/-! ## Numbers and names -/

/-- Digits of ASCII at the front of a text, and the rest. -/
def spanDigits (t : Text) : Text × Text :=
  (t.takeWhile Text.isAsciiDigit, t.dropWhile Text.isAsciiDigit)

/-- The digits of a whole part: no zero stands before others. -/
def isWholePart : Text → Bool
  | [] => false
  | '0' :: rest => rest.isEmpty
  | _ => true

/-- A double from its digits, read as a whole number, and a power of ten. Digits that are far too
large or too small are not worked out. -/
def scientific (negative : Bool) (digits : Text) (exponent : Int) : Binary64 :=
  let significant := digits.dropWhile (· == '0')
  let point := (significant.length : Int) + exponent
  if significant.isEmpty || point < -400 then ⟨negative, 0⟩
  else if 400 < point then ⟨negative, Binary64.infiniteRank⟩
  else Binary64.ofDecimal negative (Text.toNat significant) exponent

/-- The power of ten after a number, zero if there is none. -/
def exponent? : Text → Option Int
  | [] => some 0
  | c :: rest =>
    if c = 'e' ∨ c = 'E' then
      let (down, digits) := Numeral.splitSign rest
      if !digits.isEmpty && digits.all Text.isAsciiDigit then
        some (if down then -(Text.toNat digits : Int) else Text.toNat digits)
      else none
    else none

/-- A number whose sign has been read. -/
def unsigned? (negative : Bool) (t : Text) : Option Json :=
  let (whole, rest) := spanDigits t
  if !isWholePart whole then none
  else match rest with
    | [] =>
      match Text.toNatWithin whole with
      | .ok n => some (.integer (if negative then -(n : Int) else n))
      | .error _ => none
    | '.' :: rest =>
      let (fraction, rest) := spanDigits rest
      if fraction.isEmpty then none
      else (exponent? rest).map fun e =>
        .double (scientific negative (whole ++ fraction) (e - fraction.length))
    | rest => (exponent? rest).map fun e => .double (scientific negative whole e)

/-- The value that a word stands for. -/
def word? (t : Text) : Option Json :=
  if t = ['n', 'u', 'l', 'l'] then some .null
  else if t = ['t', 'r', 'u', 'e'] then some (.bool true)
  else if t = ['f', 'a', 'l', 's', 'e'] then some (.bool false)
  else if t = ['N', 'a', 'N'] then some .notNumber
  else if t = ['I', 'n', 'f', 'i', 'n', 'i', 't', 'y'] then
    some (.double ⟨false, Binary64.infiniteRank⟩)
  else if t = ['-', 'I', 'n', 'f', 'i', 'n', 'i', 't', 'y'] then
    some (.double ⟨true, Binary64.infiniteRank⟩)
  else match t with
    | '-' :: rest => unsigned? true rest
    | t => unsigned? false t

/-! ## Strings -/

/-- Where in a string the next character stands: outside escapes, after a backslash, or among the
hexadecimal digits of a code. -/
inductive Within where
  | plain
  | escape
  | code (left value : Nat)
  deriving DecidableEq, Repr

/-- The code that a character after a backslash stands for. -/
def escaped? (c : Char) : Option Nat :=
  match c with
  | '\x22' | '\\' | '/' => some c.toNat
  | 'b' => some 8
  | 'f' => some 12
  | 'n' => some 10
  | 'r' => some 13
  | 't' => some 9
  | _ => none

/-- The codes of a string up to its closing quote, the last first, and what follows. -/
def readString (codes : List Nat) : Within → Text → Option (List Nat × Text)
  | _, [] => none
  | .plain, c :: rest =>
    if c = '\x22' then some (codes, rest)
    else if c = '\\' then readString codes .escape rest
    else if c.toNat < 0x20 then none
    else readString (c.toNat :: codes) .plain rest
  | .escape, c :: rest =>
    if c = 'u' then readString codes (.code 4 0) rest
    else match escaped? c with
      | some n => readString (n :: codes) .plain rest
      | none => none
  | .code left value, c :: rest =>
    match Text.hexValue? c.toNat with
    | none => none
    | some d =>
      if left ≤ 1 then readString ((value * 16 + d) :: codes) .plain rest
      else readString codes (.code (left - 1) (value * 16 + d)) rest

theorem readString_shorter {codes : List Nat} {w : Within} {t : Text} {r : List Nat × Text}
    (h : readString codes w t = some r) : r.2.length < t.length := by
  induction t generalizing codes w with
  | nil => cases w <;> simp [readString] at h
  | cons c t ih =>
    simp only [List.length_cons]
    cases w with
    | plain =>
      simp only [readString] at h
      repeat' split at h
      all_goals first
        | contradiction
        | exact Nat.lt_succ_of_lt (ih h)
        | (cases h; simp)
    | escape =>
      simp only [readString] at h
      repeat' split at h
      all_goals first
        | contradiction
        | exact Nat.lt_succ_of_lt (ih h)
    | code left value =>
      simp only [readString] at h
      repeat' split at h
      all_goals first
        | contradiction
        | exact Nat.lt_succ_of_lt (ih h)

/-- Codes as characters; two codes of a surrogate pair make one, a lone one is replaced. -/
def characters : List Nat → Text
  | [] => []
  | [n] => [if 0xD800 ≤ n && n ≤ 0xDFFF then Utf8.replacement else Char.ofNat n]
  | m :: n :: rest =>
    if 0xD800 ≤ m && m ≤ 0xDBFF && 0xDC00 ≤ n && n ≤ 0xDFFF then
      Char.ofNat (0x10000 + (m - 0xD800) * 0x400 + (n - 0xDC00)) :: characters rest
    else
      (if 0xD800 ≤ m && m ≤ 0xDFFF then Utf8.replacement else Char.ofNat m) ::
        characters (n :: rest)

/-! ## Tokens -/

def isBlank (c : Char) : Bool := c == ' ' || c == '\t' || c == '\n' || c == '\r'

/-- The token that a character alone stands for. -/
def sign? (c : Char) : Option Token :=
  match c with
  | '[' => some (.opening .square)
  | ']' => some (.closing .square)
  | '{' => some (.opening .curly)
  | '}' => some (.closing .curly)
  | ',' => some .comma
  | ':' => some .colon
  | _ => none

/-- May a character stand in a word? -/
def inWord (c : Char) : Bool := !isBlank c && (sign? c).isNone && c != '\x22'

/-- The tokens of a text. -/
def scan : Text → Option (List Token)
  | [] => some []
  | c :: rest =>
    if isBlank c then scan rest
    else match sign? c with
      | some t => (scan rest).map (t :: ·)
      | none =>
        if c = '\x22' then
          match _h : readString [] .plain rest with
          | none => none
          | some (codes, after) =>
            (scan after).map (.scalar (.string (characters codes.reverse)) :: ·)
        else
          match word? (c :: rest.takeWhile inWord) with
          | none => none
          | some v => (scan (rest.dropWhile inWord)).map (.scalar v :: ·)
termination_by t => t.length
decreasing_by
  · simp
  · simp
  · have := readString_shorter _h
    simp only [List.length_cons] at this ⊢
    omega
  · have := (List.dropWhile_suffix inWord (l := rest)).length_le
    simp only [List.length_cons]
    omega

/-! ## Values -/

/-- An open array with its items so far, or an open object with its members so far and the name of
the one that is being read; the last comes first. -/
inductive Frame where
  | array (items : List Json)
  | object (members : List (Text × Json)) (name : Text)

inductive Expecting where
  | value
  | firstItem
  | firstName
  | name (members : List (Text × Json))
  | colon (members : List (Text × Json)) (name : Text)
  | next (last : Json)

/-- Read on from a state, up to the end of the outermost value. -/
def readFrom (open_ : List Frame) : Expecting → List Token → Option Json
  | .next v, [] => if open_.isEmpty then some v else none
  | _, [] => none
  | .value, .scalar v :: ts => readFrom open_ (.next v) ts
  | .value, .opening .square :: ts => readFrom (.array [] :: open_) .firstItem ts
  | .value, .opening .curly :: ts => readFrom open_ .firstName ts
  | .value, _ :: _ => none
  | .firstItem, .scalar v :: ts => readFrom open_ (.next v) ts
  | .firstItem, .opening .square :: ts => readFrom (.array [] :: open_) .firstItem ts
  | .firstItem, .opening .curly :: ts => readFrom open_ .firstName ts
  | .firstItem, .closing .square :: ts => readFrom open_.tail (.next (.array [])) ts
  | .firstItem, _ :: _ => none
  | .firstName, .scalar (.string name) :: ts => readFrom open_ (.colon [] name) ts
  | .firstName, .closing .curly :: ts => readFrom open_ (.next (.object [])) ts
  | .firstName, _ :: _ => none
  | .name members, .scalar (.string name) :: ts => readFrom open_ (.colon members name) ts
  | .name _, _ :: _ => none
  | .colon members name, .colon :: ts => readFrom (.object members name :: open_) .value ts
  | .colon _ _, _ :: _ => none
  | .next v, t :: ts =>
    match open_, t with
    | .array items :: outer, .comma => readFrom (.array (v :: items) :: outer) .value ts
    | .array items :: outer, .closing .square =>
      readFrom outer (.next (.array (v :: items).reverse)) ts
    | .object members name :: outer, .comma => readFrom outer (.name ((name, v) :: members)) ts
    | .object members name :: outer, .closing .curly =>
      readFrom outer (.next (.object ((name, v) :: members).reverse)) ts
    | _, _ => none

/-- The value that makes up all of a text. -/
def ofText? (t : Text) : Option Json := do readFrom [] .value (← scan t)

end Tabular.Json
