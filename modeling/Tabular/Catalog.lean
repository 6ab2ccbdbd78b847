import Tabular.Archive
import Tabular.Database

/-!
# Catalogs

A catalog holds the databases that are in use, each as it was when all its files were loaded and
with every change since. Changes of databases and tables reach the archive before the catalog;
changes of rows and columns are made here first and then written.
-/

namespace Tabular

/-- `gauge` is the number of resident databases as it was last reported. -/
structure Catalog where
  archive : Archive
  mode : InsertMode
  resident : OrderedMap Text Database
  gauge : Nat
  deriving DecidableEq

namespace Catalog

abbrev Work (α : Type) := Action Catalog Failure α

def onArchive {α : Type} (w : Archive.Work α) : Work α :=
  w.within archive fun a c => { c with archive := a }

def refuse {α : Type} (cause : Rejection) : Work α := Action.fail cause

/-- A check that needs no state. -/
def check {α : Type} (x : Except Rejection α) : Work α := Action.give (x.mapError Failure.rejected)

/-- The names of the resident databases, sorted. -/
def residents (c : Catalog) : List Text := Text.sorted c.resident.keys

/-- The names of the archived databases, sorted. -/
def databases : Work (List Text) := onArchive Archive.databases

/-- Make a database resident. -/
def hold (d : Database) : Work Unit :=
  Action.change fun c =>
    let resident := c.resident.put d.name d
    { c with resident := resident, gauge := resident.size }

/-- Let a database go. -/
def evict (name : Text) : Work Unit :=
  Action.change fun c =>
    if c.resident.has name then
      let resident := c.resident.erase name
      { c with resident := resident, gauge := resident.size }
    else c

/-- Load all tables of a database and make it resident. -/
def load (name : Text) : Work Database := do
  let names ← onArchive (Archive.tables name)
  let tables ← onArchive (Action.forEach (Archive.load name) names)
  let d ← check ((Database.empty name).addAll tables)
  hold d
  return d

/-- The database of a name whose directory must be there, loaded if it is not resident. -/
def use (name : Text) : Work Database := do
  if ← onArchive (Archive.hasDatabase name) then
    match ← Action.look (·.resident.get? name) with
    | some d => return d
    | none => load name
  else
    evict name
    refuse (.unknownDatabase name)

/-- The database of a name, loaded if it is not resident. -/
def database (name : Text) : Work Database := do
  match ← Action.look (·.resident.get? name) with
  | some d => return d
  | none => use name

/-- Make a new database. -/
def createDatabase (name : Text) : Work Database := do
  if ← Action.look (·.resident.has name) then refuse (.duplicateDatabase name)
  else if ← onArchive (Archive.hasDatabase name) then refuse (.duplicateDatabase name)
  else
    onArchive (Archive.createDatabase name)
    hold (Database.empty name)
    return Database.empty name

/-- Remove a database and all its tables. -/
def dropDatabase (name : Text) : Work Unit := do
  if ← onArchive (Archive.hasDatabase name) then
    onArchive (Archive.dropDatabase name)
    evict name
  else
    evict name
    refuse (.unknownDatabase name)

/-- A table of a database. -/
def table (database table : Text) : Work Table := do
  check ((← Catalog.database database).get table)

/-- Put a table that has changed into the place of the old one. -/
def replace (database : Text) (t : Table) : Work Unit :=
  Action.change fun c =>
    match c.resident.get? database with
    | some d => { c with resident := c.resident.put database (d.replace t) }
    | none => c

/-- Make a new table and its file. -/
def createTable (database table : Text) (columns : List Text) : Work Table := do
  let d ← Catalog.database database
  if d.has table then refuse (.duplicateTable table)
  else
    let t ← check (Table.create table columns)
    onArchive (Archive.save database t)
    replace database t
    return t

/-- Remove a table and its file. -/
def dropTable (database table : Text) : Work Unit := do
  let d ← Catalog.database database
  let _ ← check (d.get table)
  onArchive (Archive.deleteTable database table)
  let (_, rest) ← check (d.remove table)
  Action.change fun c => { c with resident := c.resident.put database rest }

/-- Write a table that has changed. -/
def persist (database : Text) (t : Table) : Work Unit := onArchive (Archive.save database t)

/-- Write a table that has got a new last row. -/
def persistInsert (database : Text) (t : Table) (row : Row) : Work Unit := do
  match ← Action.look Catalog.mode with
  | .whole => onArchive (Archive.save database t)
  | .append => onArchive (Archive.appendRow database t row)

end Catalog

end Tabular
