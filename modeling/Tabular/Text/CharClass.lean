import Tabular.Text.Basic

/-!
# Character classes

A class of characters is a list of ranges of code points, each with its first and last member.
-/

namespace Tabular

/-- Ranges of code points, both ends included. -/
abbrev CharClass := List (Nat × Nat)

/-- Is the character in one of the ranges? -/
def CharClass.has (k : CharClass) (c : Char) : Bool :=
  k.any fun r => r.1 ≤ c.toNat && c.toNat ≤ r.2

/-- The range that holds the character. -/
def CharClass.find (k : CharClass) (c : Char) : Option (Nat × Nat) :=
  k.find? fun r => r.1 ≤ c.toNat && c.toNat ≤ r.2

@[simp] theorem CharClass.has_nil (c : Char) : CharClass.has [] c = false := rfl
@[simp] theorem CharClass.has_cons (r : Nat × Nat) (k : CharClass) (c : Char) :
    CharClass.has (r :: k) c = ((r.1 ≤ c.toNat && c.toNat ≤ r.2) || CharClass.has k c) := rfl

theorem CharClass.has_eq_isSome_find (k : CharClass) (c : Char) : k.has c = (k.find c).isSome := by
  simp [has, find, List.isSome_find?]

namespace Text

/-- The blanks: the separators of Unicode and the controls that move the cursor or end a block. -/
def blanks : CharClass :=
  [(0x09, 0x0D), (0x1C, 0x20), (0x85, 0x85), (0xA0, 0xA0), (0x1680, 0x1680), (0x2000, 0x200A),
    (0x2028, 0x2029), (0x202F, 0x202F), (0x205F, 0x205F), (0x3000, 0x3000)]

def isBlank (c : Char) : Bool := blanks.has c

/-- The text without blanks at its ends. -/
def trim (t : Text) : Text := trimBy isBlank t

/-- White space around a number; of the blanks, the separators among the controls do not count. -/
def isSpace (c : Char) : Bool := isBlank c && !(0x1C ≤ c.toNat && c.toNat ≤ 0x1F)

/-- Letters, digits and the underscore of ASCII: the characters of a word. -/
def wordChars : CharClass := [(0x30, 0x39), (0x41, 0x5A), (0x5F, 0x5F), (0x61, 0x7A)]

def isWordChar (c : Char) : Bool := wordChars.has c

theorem isBlank_of_isWhitespace {c : Char} (h : c.isWhitespace) : isBlank c := by
  simp only [Char.isWhitespace, Bool.or_eq_true, decide_eq_true_eq] at h
  rcases h with ((rfl | rfl) | rfl) | rfl <;> decide

theorem not_isBlank_of_isWordChar {c : Char} (h : isWordChar c) : isBlank c = false := by
  rw [Bool.eq_false_iff]
  intro hb
  simp only [isBlank, isWordChar, blanks, wordChars, CharClass.has_cons, CharClass.has_nil,
    Bool.or_false, Bool.or_eq_true, Bool.and_eq_true, decide_eq_true_eq] at h hb
  omega

end Text

end Tabular
