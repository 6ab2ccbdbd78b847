import Tabular.Proofs.Cursor.Walk

/-!
# Statements and conditions read by a cursor

The parts of statements and conditions as walks. Lists go on for as long as a comma follows, and
conditions descend into their operands and groups: that these come to an end is not asked of the
definitions, which count their calls down from a limit. The entries of a text are made one by one
until the end is reached.
-/

namespace Tabular.Cursor

/-! ## Entries of a text -/

def kindOf : Lexeme → EntryKind
  | .keyword _ => .keyword
  | .identifier _ => .identifier
  | .number _ => .number
  | .string _ => .string
  | .operator _ => .operator
  | .mark _ => .mark

def Entry.ofToken (t : Token) : Entry := ⟨kindOf t.lexeme, t.text, t.position⟩

/-- The end, at a position. -/
def Entry.stop (position : Nat) : Entry := ⟨.stop, [], position⟩

/-- The next entry of a text whose first character has the given position, with the position behind
it and the text from there on. -/
def next (position : Nat) : Text → Except CommandFault (Entry × Nat × Text)
  | [] => .ok (.stop position, position, [])
  | c :: rest =>
    if Text.isBlank c then next (position + 1) rest
    else (Lexeme.read position c rest).map fun (l, n) =>
      (.ofToken ⟨l, position⟩, position + 1 + n, rest.drop n)

/-- Entries up to the end, if there are no more of them than the limit. -/
def entriesFrom : Nat → Nat → Text → Option (Except CommandFault (List Entry))
  | 0, _, _ => none
  | n + 1, position, t =>
    match next position t with
    | .error e => some (.error e)
    | .ok (e, position, rest) =>
      if e.isStop then some (.ok [e])
      else (entriesFrom n position rest).map (Except.map (e :: ·))

/-- The entries of a text. -/
def entries (limit : Nat) (t : Text) : Option (Except CommandFault (List Entry)) :=
  entriesFrom limit 1 t

/-! ## Parts of statements -/

def expectKeyword (k : Keyword) : Walk Unit := do
  if ← accept (·.isKeyword k) then return () else refuse (.expectedKeyword k)

def expectMark (m : Mark) : Walk Unit := do
  if ← accept (·.isMark m) then return () else refuse (.expectedMark m.text)

def expectEnd : Walk Unit := do
  if ← atEnd then return () else refuse .expectedEnd

/-- A name of the given kind. -/
def name (kind : String) : Walk Text := do
  let t ← take Entry.nameText? (.expectedName kind)
  ofResult (Name.validate kind t)

def database : Walk Text := do ofResult (Name.database (← name "database"))

def table : Walk Text := do ofResult (Name.table (← name "table"))

def column : Walk Text := name "column"

def literal : Walk Value := take Entry.literal? .expectedValue

/-- Items for as long as a comma stands before the next. -/
def moreItems {α : Type} (item : Walk α) : Walk (List α)
  | 0 => goOn 0
  | n + 1 => (do
    if ← enter (·.isMark .comma) then
      let a ← item
      return a :: (← fun _ => moreItems item n)
    else return [] : Walk (List α)) n

/-- One or more items with commas between them. -/
def items {α : Type} (item : Walk α) : Walk (List α) := do
  let a ← item
  return a :: (← moreItems item)

theorem moreItems_eq {α : Type} (item : Walk α) : moreItems item = tick (do
    if ← enter (·.isMark .comma) then items item else return []) := by
  funext n
  cases n with
  | zero => rfl
  | succ n => exact entered_congr rfl

def assignment : Walk (Text × Value) := do
  let c ← column
  if (← current).isOperator .assign then
    let _ ← advance
    return (c, ← literal)
  else reject (.command (.expectedAssignment c))

/-! ## Conditions -/

/-- The value that a column is compared with. -/
def comparedWith (column : Text) (op : Comparator) : Walk Value :=
  tryCatch literal fun
    | .rejected (.command _) => reject (.condition (.noLiteral column op))
    | halt => throw halt

section ComparedWith

variable {es : List Entry} {t : Track} {v : Value} {e : Entry} {column : Text} {op : Comparator}

theorem ends_comparedWith_some (h : es[t.place]? = some e) (hv : e.literal? = some v) :
    Ends (comparedWith column op) es t (.ok v) t.look.move := by
  obtain ⟨m, hm⟩ : Ends literal es t (.ok v) t.look.move := ends_take_some h hv
  refine ⟨m, fun n hn => ?_⟩
  change (literal n es t).bind _ = _
  rw [hm n hn]
  rfl

theorem ends_comparedWith_none (h : es[t.place]? = some e) (hv : e.literal? = none) :
    Ends (comparedWith column op) es t (.error (.rejected (.condition (.noLiteral column op))))
      t.look.look := by
  obtain ⟨m, hm⟩ : Ends literal es t (.error (.rejected (.command (.expectedValue e.found))))
    t.look.look := ends_take_none h hv
  refine ⟨m, fun n hn => ?_⟩
  change (literal n es t).bind _ = _
  rw [hm n hn]
  rfl

end ComparedWith

/-- The rest of a comparison, behind its column. -/
def comparedColumn (column : Text) : Walk Condition := do
  let sign ← current
  match sign.comparator? with
  | some op =>
    let _ ← advance
    return .compare column op (← comparedWith column op)
  | none =>
    if sign.isOperator .assign then reject (.condition (.singleEquals column))
    else reject (.condition (.noComparator column))

def comparison : Walk Condition := do
  let e ← current
  if e.isStop then reject (.condition .endsEarly)
  else if e.isMark .closing then reject (.condition .unbalanced)
  else if e.kind = .identifier ∨ e.kind = .number then comparedColumn (← advance).text
  else reject (.condition (.notColumn e.text))

mutual

/-- Conjunctions with OR between them. -/
def disjunction : Walk Condition
  | 0 => goOn 0
  | n + 1 => (do
    let c ← fun _ => conjunction n
    return Condition.grouped .or (c :: (← fun _ => moreConjunctions n)) : Walk Condition) n

def moreConjunctions : Walk (List Condition)
  | 0 => goOn 0
  | n + 1 => (do
    if ← enter (·.isKeyword .OR) then
      let c ← fun _ => conjunction n
      return c :: (← fun _ => moreConjunctions n)
    else return [] : Walk (List Condition)) n

/-- Primaries with AND between them. -/
def conjunction : Walk Condition
  | 0 => goOn 0
  | n + 1 => (do
    let c ← fun _ => primary n
    return Condition.grouped .and (c :: (← fun _ => morePrimaries n)) : Walk Condition) n

def morePrimaries : Walk (List Condition)
  | 0 => goOn 0
  | n + 1 => (do
    if ← enter (·.isKeyword .AND) then
      let c ← fun _ => primary n
      return c :: (← fun _ => morePrimaries n)
    else return [] : Walk (List Condition)) n

/-- A comparison, or a condition in parentheses. -/
def primary : Walk Condition
  | 0 => goOn 0
  | n + 1 => (do
    if ← enter (·.isMark .opening) then
      let c ← fun _ => disjunction n
      if ← accept (·.isMark .closing) then return c
      else reject (.condition .unbalanced)
    else comparison : Walk Condition) n

end

/-- Operands of OR. -/
def disjuncts : Walk (List Condition) := do
  let c ← conjunction
  return c :: (← moreConjunctions)

/-- Operands of AND. -/
def conjuncts : Walk (List Condition) := do
  let c ← primary
  return c :: (← morePrimaries)

/-- A condition in parentheses, behind the first of them. -/
def enclosed : Walk Condition := do
  let c ← disjunction
  if ← accept (·.isMark .closing) then return c else reject (.condition .unbalanced)

theorem disjunction_eq : disjunction = tick (do return Condition.grouped .or (← disjuncts)) := by
  rw [disjuncts]
  simp only [bind_assoc, pure_bind]
  funext n
  cases n <;> rfl

theorem moreConjunctions_eq : moreConjunctions = tick (do
    if ← enter (·.isKeyword .OR) then disjuncts else return []) := by
  funext n
  cases n with
  | zero => rfl
  | succ n => exact entered_congr rfl

theorem conjunction_eq : conjunction = tick (do return Condition.grouped .and (← conjuncts)) := by
  rw [conjuncts]
  simp only [bind_assoc, pure_bind]
  funext n
  cases n <;> rfl

theorem morePrimaries_eq : morePrimaries = tick (do
    if ← enter (·.isKeyword .AND) then conjuncts else return []) := by
  funext n
  cases n with
  | zero => rfl
  | succ n => exact entered_congr rfl

theorem primary_eq : primary = tick (do
    if ← enter (·.isMark .opening) then enclosed else comparison) := by
  funext n
  cases n with
  | zero => rfl
  | succ n => exact entered_congr rfl

/-- A condition after WHERE, which may be left out. -/
def condition : Walk (Option Condition) := do
  if ← accept (·.isKeyword .WHERE) then
    if ← atEnd then reject (.condition .missing)
    else return some (← disjunction)
  else return none

/-- A condition that makes up all entries. -/
def wholeCondition : Walk Condition := do
  let c ← disjunction
  if ← atEnd then return c
  else reject (.condition (.trailing (← current).text))

/-! ## Statements -/

def newColumns : Walk (List Text) := do
  if ← accept (·.isMark .opening) then
    let columns ← items column
    expectMark .closing
    return columns
  else return []

def newValues : Walk (List Value) := do
  expectMark .opening
  if ← accept (·.isMark .closing) then return []
  else
    let values ← items literal
    expectMark .closing
    return values

def wantedColumns : Walk (Option (List Text)) := do
  if ← accept (·.isMark .star) then return none else return some (← items column)

def alterAction : Walk AlterAction := do
  if ← accept (·.isKeyword .ADD) then return .add
  else if ← accept (·.isKeyword .DROP) then return .drop
  else reject (.command .expectedAction)

def use : Walk Statement := do return .use (← database)

def create : Walk Statement := do
  if ← accept (·.isKeyword .DATABASE) then return .createDatabase (← database)
  else
    expectKeyword .TABLE
    let t ← table
    return .createTable t (← newColumns)

def drop : Walk Statement := do
  if ← accept (·.isKeyword .DATABASE) then return .dropDatabase (← database)
  else
    expectKeyword .TABLE
    return .dropTable (← table)

def alter : Walk Statement := do
  expectKeyword .TABLE
  let t ← table
  let action ← alterAction
  let _ ← accept (·.isKeyword .COLUMN)
  return .alterTable t action (← column)

def insert : Walk Statement := do
  expectKeyword .INTO
  let t ← table
  expectKeyword .VALUES
  return .insert t (← newValues)

def select : Walk Statement := do
  let columns ← wantedColumns
  expectKeyword .FROM
  let t ← table
  return .select t columns (← condition)

def update : Walk Statement := do
  let t ← table
  expectKeyword .SET
  let assignments ← items assignment
  return .update t assignments (← condition)

def delete : Walk Statement := do
  expectKeyword .FROM
  let t ← table
  return .delete t (← condition)

def join : Walk Statement := do
  let left ← table
  expectKeyword .AND
  let right ← table
  expectKeyword .ON
  let leftColumn ← column
  expectKeyword .AND
  return .join left right leftColumn (← column)

/-- What follows the keyword that begins a statement, if there is such a statement. -/
def body? : Keyword → Option (Walk Statement)
  | .USE => some use
  | .CREATE => some create
  | .DROP => some drop
  | .ALTER => some alter
  | .INSERT => some insert
  | .SELECT => some select
  | .UPDATE => some update
  | .DELETE => some delete
  | .JOIN => some join
  | _ => none

/-- The same by the text of the keyword. -/
def bodyOf? (text : Text) : Option (Walk Statement) :=
  (Keyword.all.find? (·.text == text)).bind body?

/-- The statement that makes up all entries of a text. -/
def statement (whole : Text) : Walk Statement := do
  let head ← current
  if head.kind = .keyword then
    match bodyOf? head.text with
    | some body =>
      let _ ← advance
      let s ← body
      expectEnd
      return s
    | none => reject (.command (.unknown head.text))
  else reject (.command (.unknown (if head.text.isEmpty then whole else head.text)))

/-! ## Texts -/

/-- What a walk over the entries of a text, from the first on, comes to. -/
def walkThrough {α : Type} (w : Walk α) (t : Text) (limit : Nat) : Option (Except Halt α) := do
  match ← entries limit t with
  | .error e => some (.error (.rejected (.command e)))
  | .ok es =>
    let (r, _) ← w limit es (.initial 0)
    some r

/-- The statement in a text. -/
def statementIn (t : Text) : Nat → Option (Except Halt Statement) := walkThrough (statement t) t

/-- The condition in a text. -/
def conditionIn : Text → Nat → Option (Except Halt Condition) := walkThrough wholeCondition

end Tabular.Cursor
