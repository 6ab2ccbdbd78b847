import Tabular.Statement

/-!
# Outcomes

What a command comes to, and how it is answered: `[OK]` on a line, then for a statement that has
rows the header and the rows with tabs between the fields; or `[ERROR]` and what went wrong.
-/

namespace Tabular

/-- What a statement that succeeded has to show. -/
structure Result where
  header : List Text
  rows : List Row
  affected : Nat
  message : Message
  deriving DecidableEq

namespace Result

/-- Nothing to show but a message. -/
def done (message : Message) : Result := ⟨[], [], 0, message⟩

/-- A number of changed rows. -/
def changed (affected : Nat) (message : Message) : Result := ⟨[], [], affected, message⟩

def found (header : List Text) (rows : List Row) : Result := ⟨header, rows, 0, []⟩

/-- The texts of the cells. -/
def rowTexts (r : Result) : List (List Text) := r.rows.map (·.map (·.text))

end Result

/-- The end of a command: the label of its statement, and its result or why there is none. -/
structure Outcome where
  label : Label
  result : Except Failure Result

namespace Outcome

def success (o : Outcome) : Bool :=
  match o.result with
  | .ok _ => true
  | .error _ => false

def okTag : Text := ['[', 'O', 'K', ']']

def errorTag : Text := ['[', 'E', 'R', 'R', 'O', 'R', ']']

/-- Fields with tabs between them. -/
def line (fields : List Text) : Text := Text.join ['\t'] fields

/-- A failure in words; one that the command language does not know about is called internal. -/
def failureMessage (f : Failure) : Message :=
  if f.isRejection then f.message else "Internal error: " :: f.message

/-- The answer to the command. -/
def response (o : Outcome) : Text :=
  match o.result with
  | .error f => errorTag ++ [' '] ++ (failureMessage f).text
  | .ok r =>
    if o.label.hasRows then Text.join ['\n'] (okTag :: line r.header :: r.rowTexts.map line)
    else okTag

end Outcome

end Tabular
