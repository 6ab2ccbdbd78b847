import Tabular.Archive

/-!
# Settings

What can be set about the program, in three sections, with the values that hold when nothing is
set.
-/

namespace Tabular

inductive LogLevel where
  | debug | info | warning | error | critical
  deriving DecidableEq, Repr

namespace LogLevel

def text : LogLevel → Text
  | debug => ['D', 'E', 'B', 'U', 'G']
  | info => ['I', 'N', 'F', 'O']
  | warning => ['W', 'A', 'R', 'N', 'I', 'N', 'G']
  | error => ['E', 'R', 'R', 'O', 'R']
  | critical => ['C', 'R', 'I', 'T', 'I', 'C', 'A', 'L']

def all : List LogLevel := [debug, info, warning, error, critical]

def ofText? (t : Text) : Option LogLevel := all.find? (·.text == t)

end LogLevel

inductive LogFormat where
  | json | console
  deriving DecidableEq, Repr

namespace LogFormat

def text : LogFormat → Text
  | json => ['j', 's', 'o', 'n']
  | console => ['c', 'o', 'n', 's', 'o', 'l', 'e']

def all : List LogFormat := [json, console]

def ofText? (t : Text) : Option LogFormat := all.find? (·.text == t)

end LogFormat

def InsertMode.ofText? (t : Text) : Option InsertMode :=
  [InsertMode.whole, InsertMode.append].find? (·.text == t)

structure StorageSettings where
  directory : Text
  suffix : Text
  safe : Bool
  mode : InsertMode
  deriving DecidableEq, Repr

structure ServerSettings where
  host : Text
  port : Int
  httpPort : Int
  metricsPort : Int
  maxLineBytes : Int
  deriving DecidableEq, Repr

structure ReportSettings where
  level : LogLevel
  format : LogFormat
  metrics : Bool
  endpoint : Option Text
  service : Text
  console : Bool
  deriving DecidableEq, Repr

structure Settings where
  storage : StorageSettings
  server : ServerSettings
  report : ReportSettings
  deriving DecidableEq, Repr

namespace Settings

/-- The settings when nothing is set. -/
def standard : Settings where
  storage := ⟨['d', 'a', 't', 'a', 'b', 'a', 's', 'e', 's'], ['.', 't', 'a', 'b'], false, .whole⟩
  server := ⟨['0', '.', '0', '.', '0', '.', '0'], 8888, 8000, 8001, 1048576⟩
  report := ⟨.info, .json, true, none, ['t', 'a', 'b', 'd', 'b'], false⟩

/-- May a port have this number? -/
def isPort (n : Int) : Bool := 1 ≤ n && n ≤ 65535

/-- May a line be limited to this many bytes? -/
def isLineLimit (n : Int) : Bool := 1024 ≤ n

def isAlphanumeric (c : Char) : Bool := Text.isWordChar c && c != '_'

/-- May the names of table files end like this: with a point, then letters and digits? -/
def isSuffix : Text → Bool
  | '.' :: rest => !rest.isEmpty && rest.all isAlphanumeric
  | _ => false

end Settings

end Tabular
