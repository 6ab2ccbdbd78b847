import Tabular.Catalog
import Tabular.Join
import Tabular.Outcome
import Tabular.Statement.Reader

/-!
# Engines

An engine carries out commands for its sessions. Each session has a database of its own selected
and counts the commands it has carried out; one session is always open. Whatever a command comes
to, the engine has an answer for it and counts it.
-/

namespace Tabular

structure Session where
  database : Option Text
  executed : Nat
  deriving DecidableEq, Repr

/-- `opened` is the number of sessions opened so far and `gauge` the number of open ones as it was
last reported; the session that is always open does not count. -/
structure Engine where
  catalog : Catalog
  sessions : OrderedMap Text Session
  opened : Nat
  gauge : Nat
  succeeded : Nat
  failed : Nat
  commands : Tally (Label × Bool)
  timings : Tally Label

namespace Engine

/-- The id of the session that is always open. -/
def defaultId : Text := ['d', 'e', 'f', 'a', 'u', 'l', 't']

/-- How an engine keeps its tables. -/
structure Options where
  suffix : Text
  safe : Bool
  mode : InsertMode
  stamp : Text
  deriving DecidableEq

/-- A new engine over a disk. -/
def start (options : Options) (disk : Disk) : Engine where
  catalog :=
    ⟨⟨disk.withRoot, options.suffix, options.safe, options.stamp, .empty, 0⟩, options.mode, .empty, 0⟩
  sessions := OrderedMap.empty.put defaultId ⟨none, 0⟩
  opened := 0
  gauge := 0
  succeeded := 0
  failed := 0
  commands := .empty
  timings := .empty

/-- A new engine over the disk of an old one. -/
def restart (e : Engine) : Engine :=
  start ⟨e.catalog.archive.suffix, e.catalog.archive.safe, e.catalog.mode, e.catalog.archive.stamp⟩
    e.catalog.archive.disk

def disk (e : Engine) : Disk := e.catalog.archive.disk

/-- The disk changed from outside. -/
def withDisk (e : Engine) (d : Disk) : Engine :=
  { e with catalog := { e.catalog with archive := { e.catalog.archive with disk := d } } }

/-! ## Sessions -/

/-- The id of the `n`th session: its number in at least 32 digits. -/
def sessionId (n : Nat) : Text :=
  let digits := Text.ofNat n
  List.replicate (32 - digits.length) '0' ++ digits

/-- Open a session. -/
def openSession (e : Engine) : Text × Engine :=
  let id := sessionId (e.opened + 1)
  let sessions := e.sessions.put id ⟨none, 0⟩
  (id, { e with sessions := sessions, opened := e.opened + 1, gauge := sessions.size - 1 })

/-- Close a session, if it is open and may be closed. -/
def closeSession (e : Engine) (id : Text) : Bool × Engine :=
  if id = defaultId then (false, e)
  else
    let sessions := e.sessions.erase id
    (e.sessions.has id, { e with sessions := sessions, gauge := sessions.size - 1 })

/-- Close all sessions that may be closed. -/
def closeAll (e : Engine) : Engine :=
  (e.sessions.keys.filter (· ≠ defaultId)).foldl (fun e id => (e.closeSession id).2) e

/-- The session of an id; no id means the one that is always open. -/
def session (e : Engine) (id : Option Text) : Except Rejection Session :=
  let key := id.getD defaultId
  match e.sessions.get? key with
  | some s => .ok s
  | none => .error (.unknownSession key)

abbrev Work (α : Type) := Action Engine Failure α

def onCatalog {α : Type} (w : Catalog.Work α) : Work α :=
  w.within catalog fun c e => { e with catalog := c }

/-- Change a session, if it is open. -/
def changeSession (id : Text) (f : Session → Session) : Work Unit :=
  Action.change fun e =>
    match e.sessions.get? id with
    | some s => { e with sessions := e.sessions.put id (f s) }
    | none => e

/-- Take a database from every session that has it selected. -/
def forget (database : Text) : Work Unit :=
  Action.change fun e =>
    { e with
      sessions := e.sessions.map fun s =>
        if s.database = some database then { s with database := none } else s }

/-- The database that a session has selected. -/
def selected (id : Text) : Work Text := do
  let s ← Action.look fun e => e.sessions.get? id
  match s.bind (·.database) with
  | some d => return d
  | none => Action.fail (Rejection.noDatabaseSelected : Failure)

/-! ## Statements -/

/-- A table of the selected database, and the database. -/
def selectedTable (id table : Text) : Work (Text × Table) := do
  let d ← selected id
  let t ← onCatalog (Catalog.table d table)
  return (d, t)

/-- Make changes of a table known and then write it. -/
def keep (database : Text) (t : Table) : Work Unit := do
  onCatalog (Catalog.replace database t)
  onCatalog (Catalog.persist database t)

/-- Carry out a statement for a session. -/
def perform (id : Text) : Statement → Work Result
  | .use d => do
    let _ ← onCatalog (Catalog.use d)
    changeSession id fun s => { s with database := some d }
    return .done ["Using database ", d]
  | .createDatabase d => do
    let _ ← onCatalog (Catalog.createDatabase d)
    return .done ["Created database ", d]
  | .dropDatabase d => do
    onCatalog (Catalog.dropDatabase d)
    forget d
    return .done ["Dropped database ", d]
  | .createTable t columns => do
    let d ← selected id
    let _ ← onCatalog (Catalog.createTable d t columns)
    return .done ["Created table ", t]
  | .dropTable t => do
    let d ← selected id
    onCatalog (Catalog.dropTable d t)
    return .done ["Dropped table ", t]
  | .alterTable t action column => do
    let (d, old) ← selectedTable id t
    let new ← Action.give (match action with
      | .add => old.addColumn column
      | .drop => old.dropColumn column)
    keep d new
    return .done [action.keyword.text, " column ", column, " on ", t]
  | .insert t values => do
    let (d, old) ← selectedTable id t
    let (row, new) ← Action.give (old.insert values)
    onCatalog (Catalog.replace d new)
    onCatalog (Catalog.persistInsert d new row)
    return .changed 1 ["Inserted 1 row"]
  | .select t columns condition => do
    let (_, table) ← selectedTable id t
    let rows ← Action.give (table.select condition)
    let (header, rows) ← Action.give (table.project rows columns)
    return .found header rows
  | .update t assignments condition => do
    let (d, old) ← selectedTable id t
    let (n, new) ← Action.give (old.update condition assignments)
    if n ≠ 0 then keep d new
    return .changed n ["Updated ", Text.ofNat n, " rows"]
  | .delete t condition => do
    let (d, old) ← selectedTable id t
    let (n, new) ← Action.give (old.delete condition)
    if n ≠ 0 then keep d new
    return .changed n ["Deleted ", Text.ofNat n, " rows"]
  | .join left right leftColumn rightColumn => do
    let d ← selected id
    let l ← onCatalog (Catalog.table d left)
    let r ← onCatalog (Catalog.table d right)
    let (header, rows) ← Action.give (Join.join l r leftColumn rightColumn)
    return .found header rows

/-- Carry out a statement and count it for its session. -/
def complete (id : Text) (s : Statement) : Work Result := do
  let r ← perform id s
  changeSession id fun s => { s with executed := s.executed + 1 }
  return r

/-! ## Commands -/

/-- Count a command by its label and whether it succeeded. -/
def record (label : Label) (success : Bool) (e : Engine) : Engine :=
  { e with
    succeeded := e.succeeded + if success then 1 else 0
    failed := e.failed + if success then 0 else 1
    commands := e.commands.bump (label, success)
    timings := e.timings.bump label }

/-- Carry out a command for a session, or for the one that is always open. -/
def execute (e : Engine) (command : Text) (id : Option Text) : Outcome × Engine :=
  match e.session id with
  | .error cause => (⟨.unknown, .error cause⟩, e.record .unknown false)
  | .ok _ =>
    match Statement.ofCommand command with
    | .error cause => (⟨.unknown, .error cause⟩, e.record .unknown false)
    | .ok s =>
      let (result, e) := (complete (id.getD defaultId) s).run e
      let o : Outcome := ⟨s.label, result⟩
      (o, e.record s.label o.success)

/-- The answer to a command. -/
def handle (e : Engine) (command : Text) (id : Option Text) : Text × Engine :=
  let (o, e) := e.execute command id
  (o.response, e)

/-! ## Statistics -/

structure Statistics where
  databases : List Text
  resident : List Text
  sessions : Nat
  succeeded : Nat
  failed : Nat
  mode : InsertMode
  deriving DecidableEq

def statistics : Work Statistics := do
  let databases ← onCatalog Catalog.databases
  Action.look fun e =>
    ⟨databases, e.catalog.residents, e.sessions.size - 1, e.succeeded, e.failed, e.catalog.mode⟩

end Engine

end Tabular
