import Tabular.Condition.Reader
import Tabular.Statement

/-!
# Reading statements

A command is one statement and a semicolon. A reader takes tokens from the front of those that
are left, or finds that they do not begin with what it reads.
-/

namespace Tabular.Statement

abbrev Reader := StateT (List Token) (Except Rejection)

namespace Reader

/-- Turn the command down for what stands at the front. -/
def refuse {α : Type} (fault : Found → CommandFault) : Reader α := fun ts =>
  .error (.command (fault (Token.foundIn ts)))

/-- Take a token with the given lexeme, if it stands at the front. -/
def accept (l : Lexeme) : Reader Bool := fun ts =>
  match ts with
  | [] => .ok (false, [])
  | t :: rest => if t.lexeme = l then .ok (true, rest) else .ok (false, t :: rest)

/-- Take a token that `f` makes something of. -/
def take {α : Type} (f : Lexeme → Option α) (fault : Found → CommandFault) : Reader α := fun ts =>
  match ts with
  | [] => .error (.command (fault .endOfCommand))
  | t :: rest =>
    match f t.lexeme with
    | some a => .ok (a, rest)
    | none => .error (.command (fault t.found))

theorem run_take_of_some {α : Type} {f : Lexeme → Option α} {fault : Found → CommandFault}
    {t : Token} {a : α} (h : f t.lexeme = some a) (rest : List Token) :
    (take f fault).run (t :: rest) = .ok (a, rest) := by
  simp only [StateT.run, take, h]

theorem run_take_of_none {α : Type} {f : Lexeme → Option α} {fault : Found → CommandFault}
    {t : Token} (h : f t.lexeme = none) (rest : List Token) :
    (take f fault).run (t :: rest) = .error (.command (fault t.found)) := by
  simp only [StateT.run, take, h]

def keyword (k : Keyword) : Reader Unit :=
  take (fun l => if l = .keyword k then some () else none) (.expectedKeyword k)

def mark (m : Mark) : Reader Unit :=
  take (fun l => if l = .mark m then some () else none) (.expectedMark m.text)

/-- The text of a lexeme that may be meant as a name. -/
def nameText? : Lexeme → Option Text
  | .identifier t | .number t => some t
  | .keyword k => some k.text
  | .string _ | .operator _ | .mark _ => none

/-- A name of the given kind. -/
def name (kind : String) : Reader Text := do
  let t ← take nameText? (.expectedName kind)
  Name.validate kind t

/-- The name of a database, in small letters. -/
def database : Reader Text := do
  Name.database (← name "database")

/-- The name of a table, in small letters. -/
def table : Reader Text := do
  Name.table (← name "table")

def column : Reader Text := name "column"

def literal : Reader Value := take Lexeme.literal? .expectedValue

/-- Up to `n + 1` items with commas between them. -/
def listWithin {α : Type} (item : Reader α) : Nat → Reader (List α)
  | 0 => do return [← item]
  | n + 1 => do
    let a ← item
    if ← accept (.mark .comma) then return a :: (← listWithin item n) else return [a]

/-- One or more items with commas between them; there are no more items than tokens. -/
def list {α : Type} (item : Reader α) : Reader (List α) := do
  listWithin item (← get).length

/-- The columns of a new table, which may be left out. -/
def newColumns : Reader (List Text) := do
  if ← accept (.mark .opening) then
    let columns ← list column
    mark .closing
    return columns
  else return []

/-- The values of a new row, of which there may be none. -/
def newValues : Reader (List Value) := do
  mark .opening
  if ← accept (.mark .closing) then return []
  else
    let values ← list literal
    mark .closing
    return values

/-- The columns that are asked for; a star stands for all. -/
def wantedColumns : Reader (Option (List Text)) := do
  if ← accept (.mark .star) then return none else return some (← list column)

/-- A column and the value that it gets. -/
def assignment : Reader (Text × Value) := do
  let c ← column
  if ← accept (.operator .assign) then return (c, ← literal)
  else refuse fun _ => .expectedAssignment c

/-- A condition after WHERE, which may be left out. -/
def condition : Reader (Option Condition) := do
  if ← accept (.keyword .WHERE) then
    match ← get with
    | [] => throw (.condition .missing)
    | ts =>
      let (c, rest) ← (Condition.read ts).mapError Rejection.condition
      set rest
      return some c
  else return none

/-- What an ALTER does to a column. -/
def alterAction : Reader AlterAction := do
  if ← accept (.keyword .ADD) then return .add
  else if ← accept (.keyword .DROP) then return .drop
  else refuse fun _ => .expectedAction

def use : Reader Statement := do return .use (← database)

def create : Reader Statement := do
  if ← accept (.keyword .DATABASE) then return .createDatabase (← database)
  else
    keyword .TABLE
    let t ← table
    return .createTable t (← newColumns)

def drop : Reader Statement := do
  if ← accept (.keyword .DATABASE) then return .dropDatabase (← database)
  else
    keyword .TABLE
    return .dropTable (← table)

def alter : Reader Statement := do
  keyword .TABLE
  let t ← table
  let action ← alterAction
  let _ ← accept (.keyword .COLUMN)
  return .alterTable t action (← column)

def insert : Reader Statement := do
  keyword .INTO
  let t ← table
  keyword .VALUES
  return .insert t (← newValues)

def select : Reader Statement := do
  let columns ← wantedColumns
  keyword .FROM
  let t ← table
  return .select t columns (← condition)

def update : Reader Statement := do
  let t ← table
  keyword .SET
  let assignments ← list assignment
  return .update t assignments (← condition)

def delete : Reader Statement := do
  keyword .FROM
  let t ← table
  return .delete t (← condition)

def join : Reader Statement := do
  let left ← table
  keyword .AND
  let right ← table
  keyword .ON
  let leftColumn ← column
  keyword .AND
  return .join left right leftColumn (← column)

/-- What follows the keyword that begins a statement, if there is such a statement. -/
def body? : Keyword → Option (Reader Statement)
  | .USE => some use
  | .CREATE => some create
  | .DROP => some drop
  | .ALTER => some alter
  | .INSERT => some insert
  | .SELECT => some select
  | .UPDATE => some update
  | .DELETE => some delete
  | .JOIN => some join
  | _ => none

end Reader

/-- The statement that makes up all of the tokens. -/
def ofTokens (head : Token) (ts : List Token) : Except Rejection Statement :=
  match head.lexeme with
  | .keyword k =>
    match Reader.body? k with
    | none => .error (.command (.unknown head.text))
    | some body =>
      match body.run ts with
      | .error e => .error e
      | .ok (s, []) => .ok s
      | .ok (_, t :: _) => .error (.command (.expectedEnd t.found))
  | _ => .error (.command (.unknown head.text))

/-- The statement in a text without its semicolon. -/
def ofText (text : Text) : Except Rejection Statement :=
  match Token.scan text with
  | .error e => .error (.command e)
  | .ok [] => .error (.command (.unknown text))
  | .ok (head :: ts) => ofTokens head ts

/-- A command without its semicolon and without the blanks around it. -/
def commandBody (command : Text) : Except CommandFault Text :=
  let t := Text.trim command
  if t.isEmpty then .error .empty
  else if t.getLast? ≠ some ';' then .error .noTerminator
  else
    let body := Text.trim t.dropLast
    if body.isEmpty then .error .empty else .ok body

/-- The statement in a command. -/
def ofCommand (command : Text) : Except Rejection Statement :=
  match commandBody command with
  | .error e => .error (.command e)
  | .ok body => ofText body

end Tabular.Statement
