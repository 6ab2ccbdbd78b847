import Tabular.Disk
import Tabular.Table.File
import Tabular.Tally

/-!
# Archives

An archive keeps databases on a disk: a directory for each database, a file for each table. A
table is saved by writing a temporary file beside its own and moving it over it, so that the file
is never seen half written; a row can also be added at the end of the file that is there.
-/

namespace Tabular

/-- The two ways in which an inserted row reaches its file. -/
inductive InsertMode where
  | whole | append
  deriving DecidableEq, Repr

def InsertMode.text : InsertMode → Text
  | .whole => ['r', 'e', 'w', 'r', 'i', 't', 'e']
  | .append => ['a', 'p', 'p', 'e', 'n', 'd']

/-- A disk with the archive's conventions: the ending of file names, whether writing waits until
the file is safe, and what a temporary file's name holds that no other name does. The archive
counts the tables that it has written, by mode, and loaded. -/
structure Archive where
  disk : Disk
  suffix : Text
  safe : Bool
  stamp : Text
  writes : Tally InsertMode
  loads : Nat
  deriving DecidableEq

namespace Archive

def databasePath (database : Text) : Path := Path.under [] database

def tablePath (a : Archive) (database table : Text) : Path :=
  (databasePath database).under (table ++ a.suffix)

/-- The path of a temporary file, beside the table's own. Its name is not brought into a plain
form. -/
def temporaryPath (a : Archive) (database table : Text) : Path :=
  (a.tablePath database table).parent ++
    Text.pieces '/' (['.'] ++ table ++ ['.'] ++ a.stamp ++ ['.', 't', 'm', 'p'])

/-- How a path is written. -/
def pathText (a : Archive) (p : Path) : Text := p.text a.disk.root

abbrev Work (α : Type) := Action Archive Failure α

/-- A call to the disk; its refusal is passed on as it is. -/
def onDisk {α : Type} (c : Disk.Call α) : Work α :=
  (c.mapFailure Failure.system).within disk fun d a => { a with disk := d }

/-- A failed call as a storage fault, if it was refused. -/
def storageFailure (fault : SystemFault → StorageFault) : SystemFault → Failure
  | .nullCharacter => .system .nullCharacter
  | cause => .rejected (.storage (fault cause))

/-- A call to the disk whose refusal is a storage fault. -/
def stored {α : Type} (fault : SystemFault → StorageFault) (c : Disk.Call α) : Work α :=
  (c.mapFailure (storageFailure fault)).within disk fun d a => { a with disk := d }

def refuse {α : Type} (cause : Rejection) : Work α := Action.fail cause

/-- Is there a directory for the database? -/
def hasDatabase (database : Text) : Work Bool := onDisk (Disk.isDirectory (databasePath database))

/-- Make a directory for a database where nothing is, and the directories above it. -/
def createDatabase (database : Text) : Work Unit := do
  if ← onDisk (Disk.isThere (databasePath database)) then refuse (.duplicateDatabase database)
  else
    let path ← Action.look fun a => a.pathText (databasePath database)
    stored (.createDirectory path) (Disk.makeDirectories (databasePath database))

/-- Remove the directory of a database with all its tables. -/
def dropDatabase (database : Text) : Work Unit := do
  if ← hasDatabase database then
    let path ← Action.look fun a => a.pathText (databasePath database)
    stored (.removeDirectory path) (Disk.removeTree (databasePath database))
  else refuse (.unknownDatabase database)

/-- The names of the databases, sorted. -/
def databases : Work (List Text) := do
  let members ← onDisk (Disk.list [])
  return Text.sorted (members.filterMap fun
    | (name, .directory) => some name
    | (_, .file _) => none)

/-- The table that a file is for: its name without the suffix, if it ends with it. Without a suffix
to tell it from, no name is left. -/
def tableOf? (suffix name : Text) : Option Text :=
  if name.endsWith suffix then
    some (if suffix.isEmpty then [] else name.take (name.length - suffix.length))
  else none

/-- The names of the tables of a database, sorted. -/
def tables (database : Text) : Work (List Text) := do
  if ← hasDatabase database then
    let members ← onDisk (Disk.list (databasePath database))
    let suffix ← Action.look Archive.suffix
    return Text.sorted (members.filterMap fun
      | (name, .file _) => tableOf? suffix name
      | (_, .directory) => none)
  else refuse (.unknownDatabase database)

/-- Every line break as a line feed: those with a carriage return, and carriage returns alone. -/
def unifyLines : Text → Text
  | [] => []
  | '\r' :: '\n' :: t => '\n' :: unifyLines t
  | '\r' :: t => '\n' :: unifyLines t
  | c :: t => c :: unifyLines t

/-- Read a table from its file. -/
def load (database table : Text) : Work Table := do
  let p ← Action.look fun a => a.tablePath database table
  let path ← Action.look fun a => a.pathText p
  let bytes ← stored (.readFile path) (Disk.read p)
  match Utf8.decode bytes with
  | .error fault => refuse (.storage (.decodeFile path fault))
  | .ok text =>
    let t ← Action.give (Table.decode table (unifyLines text) path)
    Action.change fun a => { a with loads := a.loads + 1 }
    return t

/-- Count a written table. -/
def countWrite (mode : InsertMode) : Work Unit :=
  Action.change fun a => { a with writes := a.writes.bump mode }

/-- Add bytes to a file, and wait until it is safe if that is asked for. -/
def write (safe : Bool) (p : Path) (content : Bytes) : Disk.Call Unit := do
  Disk.append p content
  if safe then Disk.sync p

/-- Write a table to its file, in whole. A temporary file that cannot take its place is removed. -/
def save (database : Text) (t : Table) : Work Unit := do
  let a ← Action.look id
  let p := a.tablePath database t.name
  let temporary := a.temporaryPath database t.name
  onDisk (Disk.createFile temporary)
  let result ← Action.attempt <| Action.within disk (fun d a => { a with disk := d }) do
    write a.safe temporary (Utf8.encode t.encode)
    Disk.rename temporary p
  match result with
  | .ok () => countWrite .whole
  | .error .nullCharacter => Action.fail (.system .nullCharacter)
  | .error cause =>
    onDisk (Disk.unlinkIfThere temporary)
    refuse (.storage (.writeFile (a.pathText p) cause))

/-- Add a row to the end of a table's file. -/
def appendRow (database : Text) (t : Table) (row : Row) : Work Unit := do
  let a ← Action.look id
  let p := a.tablePath database t.name
  if ← onDisk (Disk.isFile p) then
    stored (.appendFile (a.pathText p)) (write a.safe p (Utf8.encode (Table.encodeRow row)))
    countWrite .append
  else refuse (.storage (.appendMissing (a.pathText p)))

/-- Remove the file of a table, if there is one. -/
def deleteTable (database table : Text) : Work Unit := do
  let p ← Action.look fun a => a.tablePath database table
  let path ← Action.look fun a => a.pathText p
  stored (.removeFile path) (Disk.unlinkIfThere p)

end Archive

end Tabular
