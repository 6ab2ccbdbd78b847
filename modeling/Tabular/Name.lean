import Tabular.Failure

/-!
# Names

The names of databases, tables and columns. Databases and tables are named in small letters, as
their directories and files are; columns keep their spelling and are found in any letter case.
-/

namespace Tabular.Name

/-- The name of the first column of every table. -/
def id : Text := ['i', 'd']

def isKeyword (word : Text) : Bool := (Keyword.ofWord? word).isSome

/-- Does the name refer to the id column? -/
def isId (name : Text) : Bool := Text.lower name == id

/-- Is the text a plain word? -/
def isPlain (name : Text) : Bool := !name.isEmpty && name.all Text.isWordChar

/-- A name of the given kind is a plain word and no keyword. -/
def validate (kind : String) (name : Text) : Except Rejection Text :=
  if !isPlain name then .error (.invalidName kind name)
  else if isKeyword name then .error (.keywordName kind name)
  else .ok name

def database (name : Text) : Except Rejection Text := (validate "database" name).map Text.lower

def table (name : Text) : Except Rejection Text := (validate "table" name).map Text.lower

/-- The place of the first column that a name refers to. -/
def find? (columns : List Text) (name : Text) : Option Nat :=
  columns.findIdx? fun column => Text.lower column == Text.lower name

/-- The place of a column that must exist, in a table that an error names if its name is given. -/
def resolve (columns : List Text) (name : Text) (table : Text) : Except Rejection Nat :=
  match find? columns name with
  | some i => .ok i
  | none => .error (.unknownColumn name table)

theorem validate_eq_ok_iff {kind : String} {name t : Text} :
    validate kind name = .ok t ↔ t = name ∧ isPlain name ∧ isKeyword name = false := by
  unfold validate
  cases isPlain name <;> cases isKeyword name <;> simp [eq_comm]

theorem resolve_eq_ok_iff {columns : List Text} {name table : Text} {i : Nat} :
    resolve columns name table = .ok i ↔ find? columns name = some i := by
  unfold resolve
  split <;> simp_all

theorem find?_lt {columns : List Text} {name : Text} {i : Nat} (h : find? columns name = some i) :
    i < columns.length := (List.findIdx?_eq_some_iff_getElem.1 h).1

end Tabular.Name
