import Tabular.Keyword
import Tabular.Number.Natural
import Tabular.Text.Utf8

/-!
# Failures

Everything that can go wrong, as causes; each kind has one function that puts it into words. A
failure is a rejection, which the command language knows about, or a fault of number conversion
or of the operating system that nobody expected there.
-/

namespace Tabular

/-- The operators that compare a column with a literal. -/
inductive Comparator where
  | eq | ne | gt | lt | ge | le | like
  deriving DecidableEq, Repr

namespace Comparator

def text : Comparator → Text
  | eq => ['=', '=']
  | ne => ['!', '=']
  | gt => ['>']
  | lt => ['<']
  | ge => ['>', '=']
  | le => ['<', '=']
  | like => ['L', 'I', 'K', 'E']

/-- Does the operator need numbers on both sides? -/
def isOrdering : Comparator → Bool
  | gt | lt | ge | le => true
  | eq | ne | like => false

end Comparator

/-- What stands where something else was expected. -/
inductive Found where
  | endOfCommand
  | token (text : Text) (position : Nat)
  deriving DecidableEq, Repr

def Found.message : Found → Message
  | .endOfCommand => ["end of command"]
  | .token t n => ["'", t, "' at position ", Text.ofNat n]

/-- What is wrong with the form of a command. Positions count characters from one. -/
inductive CommandFault where
  | empty
  | noTerminator
  | unknown (head : Text)
  | secondStatement (position : Nat)
  | openString (position : Nat)
  | badNumber (position : Nat)
  | badCharacter (c : Char) (position : Nat)
  | expectedKeyword (k : Keyword) (found : Found)
  | expectedMark (mark : Text) (found : Found)
  | expectedName (kind : String) (found : Found)
  | expectedValue (found : Found)
  | expectedEnd (found : Found)
  | expectedAction
  | expectedAssignment (column : Text)
  deriving DecidableEq, Repr

def CommandFault.message : CommandFault → Message
  | .empty => ["Empty command"]
  | .noTerminator => ["Missing ';' at end of command"]
  | .unknown head => ["Unknown command: ", head]
  | .secondStatement n =>
    ["Only one statement per line is allowed; unexpected ';' at position ", Text.ofNat n]
  | .openString n => ["Unterminated string literal at position ", Text.ofNat n]
  | .badNumber n => ["Malformed number at position ", Text.ofNat n]
  | .badCharacter c n => ["Unexpected character ", Text.quoted [c], " at position ", Text.ofNat n]
  | .expectedKeyword k found => "Expected " :: k.text :: " but found " :: found.message
  | .expectedMark mark found => "Expected '" :: mark :: "' but found " :: found.message
  | .expectedName kind found => "Expected " :: kind :: " name but found " :: found.message
  | .expectedValue found => "Expected a value but found " :: found.message
  | .expectedEnd found => "Unexpected " :: found.message
  | .expectedAction => ["Expected ADD or DROP after ALTER TABLE <name>"]
  | .expectedAssignment column => ["Expected '=' after ", column, " in SET"]

/-- What is wrong with a condition, in its form or when it meets a table. -/
inductive ConditionFault where
  | missing
  | unbalanced
  | endsEarly
  | notColumn (found : Text)
  | singleEquals (column : Text)
  | noComparator (column : Text)
  | noLiteral (column : Text) (op : Comparator)
  | trailing (found : Text)
  | nonNumericOperand (op : Comparator) (literal : Text)
  | unordered (text : Text)
  deriving DecidableEq, Repr

def ConditionFault.message : ConditionFault → Message
  | .missing => ["WHERE needs a condition"]
  | .unbalanced => ["Unbalanced parentheses in condition"]
  | .endsEarly => ["Condition ended unexpectedly"]
  | .notColumn found => ["Expected a column name in condition but found '", found, "'"]
  | .singleEquals column => ["Use '==' to compare ", column, " for equality"]
  | .noComparator column => ["Expected a comparison operator after ", column]
  | .noLiteral column op => ["Missing value after ", column, " ", op.text]
  | .trailing found => ["Unexpected '", found, "' in condition"]
  | .nonNumericOperand op literal =>
    ["Operator ", op.text, " needs a numeric operand, got ", literal]
  | .unordered text => ["Cannot order non-numeric value: ", text]

/-- What an operation tries to do with the id column. -/
inductive ColumnAction where
  | create | add | drop | update
  deriving DecidableEq, Repr

def ColumnAction.words : ColumnAction → String
  | .create => "create"
  | .add => "add"
  | .drop => "drop"
  | .update => "update"

/-- The reasons an operating system gives. -/
inductive Errno where
  | notPermitted
  | notFound
  | inputOutput
  | accessDenied
  | alreadyExists
  | notDirectory
  | isDirectory
  | diskFull
  | readOnly
  | nameTooLong
  deriving DecidableEq, Repr

def Errno.number : Errno → Nat
  | .notPermitted => 1
  | .notFound => 2
  | .inputOutput => 5
  | .accessDenied => 13
  | .alreadyExists => 17
  | .notDirectory => 20
  | .isDirectory => 21
  | .diskFull => 28
  | .readOnly => 30
  | .nameTooLong => 36

def Errno.words : Errno → String
  | .notPermitted => "Operation not permitted"
  | .notFound => "No such file or directory"
  | .inputOutput => "Input/output error"
  | .accessDenied => "Permission denied"
  | .alreadyExists => "File exists"
  | .notDirectory => "Not a directory"
  | .isDirectory => "Is a directory"
  | .diskFull => "No space left on device"
  | .readOnly => "Read-only file system"
  | .nameTooLong => "File name too long"

/-- Why a call to the operating system fails: it is refused for a reason, with the path and for a
rename the second path; or it is never made, as no path has a null character in it. -/
inductive SystemFault where
  | refused (errno : Errno) (path : Text) (target : Option Text)
  | nullCharacter
  deriving DecidableEq, Repr

def SystemFault.message : SystemFault → Message
  | .refused errno path target =>
    "[Errno " :: Text.ofNat errno.number :: "] " :: errno.words :: ": " :: Text.quoted path ::
      match target with
      | none => []
      | some path => [" -> ", Text.quoted path]
  | .nullCharacter => ["embedded null byte"]

def Utf8.Reason.words : Utf8.Reason → String
  | .startByte => "invalid start byte"
  | .continuationByte => "invalid continuation byte"
  | .endOfData => "unexpected end of data"

def Utf8.Fault.message (f : Utf8.Fault) : Message :=
  if f.length = 1 then
    ["'utf-8' codec can't decode byte 0x", Text.hex 2 f.byte.toNat, " in position ",
      Text.ofNat f.position, ": ", f.reason.words]
  else
    ["'utf-8' codec can't decode bytes in position ", Text.ofNat f.position, "-",
      Text.ofNat (f.position + f.length - 1), ": ", f.reason.words]

/-- What is wrong with the text of a table file. Lines count from one. -/
inductive FileFault where
  | noHeader
  | firstColumn (found : Text)
  | badColumn (name : Text)
  | fieldCount (line fields columns : Nat)
  | badId (line : Nat) (found : Text)
  | repeatedId (line id : Nat)
  deriving DecidableEq, Repr

def FileFault.message : FileFault → Message
  | .noHeader => ["missing header line"]
  | .firstColumn found => ["first column must be 'id', found '", found, "'"]
  | .badColumn name => ["bad or repeated column name '", name, "'"]
  | .fieldCount line fields columns =>
    ["line ", Text.ofNat line, " has ", Text.ofNat fields, " fields, header has ",
      Text.ofNat columns]
  | .badId line found => ["line ", Text.ofNat line, " has non-integer id '", found, "'"]
  | .repeatedId line id => ["line ", Text.ofNat line, " repeats id ", Text.ofNat id]

/-- Which step of storing or reading failed, on which path. -/
inductive StorageFault where
  | createRoot (path : Text) (cause : SystemFault)
  | createDirectory (path : Text) (cause : SystemFault)
  | removeDirectory (path : Text) (cause : SystemFault)
  | readFile (path : Text) (cause : SystemFault)
  | decodeFile (path : Text) (cause : Utf8.Fault)
  | writeFile (path : Text) (cause : SystemFault)
  | appendMissing (path : Text)
  | appendFile (path : Text) (cause : SystemFault)
  | removeFile (path : Text) (cause : SystemFault)
  deriving DecidableEq, Repr

def StorageFault.message : StorageFault → Message
  | .createRoot path cause => "Cannot create storage root " :: path :: ": " :: cause.message
  | .createDirectory path cause =>
    "Cannot create database directory " :: path :: ": " :: cause.message
  | .removeDirectory path cause =>
    "Cannot remove database directory " :: path :: ": " :: cause.message
  | .readFile path cause => "Cannot read table file " :: path :: ": " :: cause.message
  | .decodeFile path cause => "Cannot read table file " :: path :: ": " :: cause.message
  | .writeFile path cause => "Cannot write table file " :: path :: ": " :: cause.message
  | .appendMissing path => ["Cannot append to missing table file ", path]
  | .appendFile path cause => "Cannot append to table file " :: path :: ": " :: cause.message
  | .removeFile path cause => "Cannot remove table file " :: path :: ": " :: cause.message

/-- Why a command is turned down. -/
inductive Rejection where
  | command (fault : CommandFault)
  | condition (fault : ConditionFault)
  | invalidName (kind : String) (name : Text)
  | keywordName (kind : String) (name : Text)
  | noDatabaseSelected
  | unknownSession (id : Text)
  | unknownDatabase (name : Text)
  | duplicateDatabase (name : Text)
  | unknownTable (name : Text)
  | duplicateTable (name : Text)
  | unknownColumn (name : Text) (table : Text)
  | duplicateColumn (name : Text)
  | reservedColumn (action : ColumnAction)
  | valueCount (expected actual : Nat)
  | invalidValue (text : Text)
  | storage (fault : StorageFault)
  | malformedFile (path : Text) (fault : FileFault)
  deriving DecidableEq, Repr

def Rejection.message : Rejection → Message
  | .command fault => fault.message
  | .condition fault => fault.message
  | .invalidName kind name => ["Invalid ", kind, " name: ", Text.quoted name]
  | .keywordName kind name => ["Keyword cannot be used as a ", kind, " name: ", name]
  | .noDatabaseSelected => ["No database selected. Use 'USE <name>;' first"]
  | .unknownSession id => ["Session not found: ", id]
  | .unknownDatabase name => ["Database does not exist: ", name]
  | .duplicateDatabase name => ["Database already exists: ", name]
  | .unknownTable name => ["Table does not exist: ", name]
  | .duplicateTable name => ["Table already exists: ", name]
  | .unknownColumn name [] => ["Column does not exist: ", name]
  | .unknownColumn name (c :: table) => ["Column does not exist in table ", c :: table, ": ", name]
  | .duplicateColumn name => ["Column already exists: ", name]
  | .reservedColumn action => ["Cannot ", action.words, " the reserved 'id' column"]
  | .valueCount expected actual =>
    ["Expected ", Text.ofNat expected, " values but got ", Text.ofNat actual]
  | .invalidValue text => ["Values cannot contain tabs or line breaks: ", Text.quoted text]
  | .storage fault => fault.message
  | .malformedFile path fault => "Cannot load table file " :: path :: ": " :: fault.message

/-- A rejection, or a fault that is not one of the command language's own. -/
inductive Failure where
  | rejected (cause : Rejection)
  | number (cause : NumberFault)
  | system (cause : SystemFault)
  deriving DecidableEq, Repr

namespace Failure

instance : Coe Rejection Failure := ⟨rejected⟩
instance : Coe NumberFault Failure := ⟨number⟩
instance : Coe CommandFault Failure := ⟨fun f => rejected (.command f)⟩
instance : Coe ConditionFault Failure := ⟨fun f => rejected (.condition f)⟩

def message : Failure → Message
  | rejected cause => cause.message
  | number cause => cause.message
  | system cause => cause.message

/-- Is the failure one that the command language knows about? -/
def isRejection : Failure → Bool
  | rejected _ => true
  | number _ | system _ => false

end Failure

end Tabular
