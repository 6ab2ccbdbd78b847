import Tabular.Condition

/-!
# Statements

The eleven statements of the command language. Names of databases and tables are in small letters;
columns are spelled as they were written.
-/

namespace Tabular

inductive AlterAction where
  | add | drop
  deriving DecidableEq, Repr

def AlterAction.keyword : AlterAction → Keyword
  | .add => .ADD
  | .drop => .DROP

inductive Statement where
  | use (database : Text)
  | createDatabase (database : Text)
  | dropDatabase (database : Text)
  | createTable (table : Text) (columns : List Text)
  | dropTable (table : Text)
  | alterTable (table : Text) (action : AlterAction) (column : Text)
  | insert (table : Text) (values : List Value)
  | select (table : Text) (columns : Option (List Text)) (condition : Option Condition)
  | update (table : Text) (assignments : List (Text × Value)) (condition : Option Condition)
  | delete (table : Text) (condition : Option Condition)
  | join (left right leftColumn rightColumn : Text)
  deriving Repr

/-- The label that statistics keep a statement under; a command that is no statement has one too. -/
inductive Label where
  | unknown | use | createDatabase | dropDatabase | createTable | dropTable | alterTable | insert
  | select | update | delete | join
  deriving DecidableEq, Repr

def Label.words : Label → String
  | .unknown => "unknown"
  | .use => "use"
  | .createDatabase => "create_database"
  | .dropDatabase => "drop_database"
  | .createTable => "create_table"
  | .dropTable => "drop_table"
  | .alterTable => "alter_table"
  | .insert => "insert"
  | .select => "select"
  | .update => "update"
  | .delete => "delete"
  | .join => "join"

/-- Does a statement with this label answer with rows? -/
def Label.hasRows : Label → Bool
  | .select | .join => true
  | _ => false

namespace Statement

def label : Statement → Label
  | use _ => .use
  | createDatabase _ => .createDatabase
  | dropDatabase _ => .dropDatabase
  | createTable _ _ => .createTable
  | dropTable _ => .dropTable
  | alterTable _ _ _ => .alterTable
  | insert _ _ => .insert
  | select _ _ _ => .select
  | update _ _ _ => .update
  | delete _ _ => .delete
  | join _ _ _ _ => .join

/-- The condition of a statement as its summary shows it. -/
def whereText : Option Condition → Text
  | none => []
  | some c => [' '] ++ Keyword.WHERE.text ++ [' '] ++ c.text

/-- The statement in one line. -/
def summary : Statement → Message
  | use d => ["Use(", d, ")"]
  | createDatabase d => ["CreateDatabase(", d, ")"]
  | dropDatabase d => ["DropDatabase(", d, ")"]
  | createTable t columns => ["CreateTable(", t, ", [", Text.join [',', ' '] columns, "])"]
  | dropTable t => ["DropTable(", t, ")"]
  | alterTable t action column => ["AlterTable(", t, ", ", action.keyword.text, " ", column, ")"]
  | insert t values => ["Insert(", t, ", values=", Text.quotedList (values.map (·.text)), ")"]
  | select t columns condition =>
    ["Select(", (columns.map (Text.join [',', ' '])).getD ['*'], " FROM ", t, whereText condition,
      ")"]
  | update t assignments condition =>
    ["Update(", t, ", SET ",
      Text.join [',', ' '] (assignments.map fun a => a.1 ++ ['='] ++ a.2.text),
      whereText condition, ")"]
  | delete t condition => ["Delete(", t, whereText condition, ")"]
  | join left right leftColumn rightColumn =>
    ["Join(", left, ".", leftColumn, " == ", right, ".", rightColumn, ")"]

end Statement

end Tabular
