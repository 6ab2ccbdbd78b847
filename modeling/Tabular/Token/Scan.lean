import Tabular.Token

/-!
# Scanning

A statement is cut into tokens: at each place that is not blank, the longest lexeme that starts
there is taken. A number is a run of digits with an optional sign and fraction; a fraction may
hold any digit marks.
-/

namespace Tabular

namespace Lexeme

/-- A word is a keyword or an identifier. -/
def wordLexeme (word : Text) : Lexeme :=
  match Keyword.ofWord? word with
  | some k => .keyword k
  | none => .identifier word

/-- The fraction at the front of a text: a point and at least one digit mark. -/
def fraction : Text → Text
  | '.' :: rest =>
    let digits := rest.takeWhile Text.isDigitMark
    if digits.isEmpty then [] else '.' :: digits
  | _ => []

def startsWord : Text → Bool
  | [] => false
  | c :: _ => Text.isWordChar c

def startsDigit : Text → Bool
  | [] => false
  | c :: _ => Text.isDigitMark c

/-- A number whose sign and whole digits have been read, and how far it goes on. No word may touch
its fraction. -/
def readNumber (position : Nat) (read rest : Text) : Except CommandFault (Lexeme × Nat) :=
  let f := fraction rest
  if !f.isEmpty && startsWord (rest.drop f.length) then .error (.badNumber position)
  else .ok (.number (read ++ f), f.length)

/-- A number after its sign. -/
def readSigned (position : Nat) (sign : Char) (rest : Text) : Except CommandFault (Lexeme × Nat) :=
  let run := rest.takeWhile Text.isWordChar
  if !run.isEmpty && run.all Text.isAsciiDigit then
    (readNumber position (sign :: run) (rest.drop run.length)).map fun (l, n) => (l, run.length + n)
  else .error (.badNumber position)

/-- A number, keyword or identifier that begins with `c`. -/
def readWord (position : Nat) (c : Char) (rest : Text) : Except CommandFault (Lexeme × Nat) :=
  let run := rest.takeWhile Text.isWordChar
  if (c :: run).all Text.isAsciiDigit then
    (readNumber position (c :: run) (rest.drop run.length)).map fun (l, n) => (l, run.length + n)
  else .ok (wordLexeme (c :: run), run.length)

/-- The text up to the next single quote, if there is one. -/
def readQuoted (position : Nat) (rest : Text) : Except CommandFault (Lexeme × Nat) :=
  let inner := rest.takeWhile (· != '\'')
  if inner.length = rest.length then .error (.openString position)
  else .ok (.string inner, inner.length + 1)

/-- An operator or mark that begins with `c`. -/
def readSign (position : Nat) (c : Char) (rest : Text) : Except CommandFault (Lexeme × Nat) :=
  let equals := rest.head? == some '='
  match c with
  | '=' => .ok (if equals then (.operator .eq, 1) else (.operator .assign, 0))
  | '>' => .ok (if equals then (.operator .ge, 1) else (.operator .gt, 0))
  | '<' => .ok (if equals then (.operator .le, 1) else (.operator .lt, 0))
  | '!' => if equals then .ok (.operator .ne, 1) else .error (.badCharacter c position)
  | '(' => .ok (.mark .opening, 0)
  | ')' => .ok (.mark .closing, 0)
  | ',' => .ok (.mark .comma, 0)
  | '*' => .ok (.mark .star, 0)
  | ';' => .error (.secondStatement position)
  | _ => .error (.badCharacter c position)

/-- The lexeme that begins with `c`, and how many characters of the rest it takes. -/
def read (position : Nat) (c : Char) (rest : Text) : Except CommandFault (Lexeme × Nat) :=
  if c = '\'' then readQuoted position rest
  else if (c = '+' ∨ c = '-') ∧ startsDigit rest then readSigned position c rest
  else if Text.isWordChar c then readWord position c rest
  else readSign position c rest

end Lexeme

namespace Token

/-- The tokens of a text whose first character has the given position. -/
def scanFrom (position : Nat) : Text → Except CommandFault (List Token)
  | [] => .ok []
  | c :: rest =>
    if Text.isBlank c then scanFrom (position + 1) rest
    else
      match Lexeme.read position c rest with
      | .error e => .error e
      | .ok (l, n) =>
        (scanFrom (position + 1 + n) (rest.drop n)).map (⟨l, position⟩ :: ·)
termination_by t => t.length
decreasing_by all_goals simp only [List.length_drop, List.length_cons]; omega

/-- The tokens of a statement. -/
def scan (t : Text) : Except CommandFault (List Token) := scanFrom 1 t

/-- The position after the last character, where a statement ends. -/
def endPosition (t : Text) : Nat := t.length + 1

@[simp] theorem scanFrom_nil (position : Nat) : scanFrom position [] = .ok [] := by
  rw [scanFrom]

theorem scanFrom_blank {position : Nat} {c : Char} {rest : Text} (h : Text.isBlank c) :
    scanFrom position (c :: rest) = scanFrom (position + 1) rest := by
  rw [scanFrom, if_pos h]

end Token

end Tabular
