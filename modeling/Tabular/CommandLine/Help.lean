import Tabular.CommandLine

/-!
# Help on the command line

The help shows how the flags are used, on lines of limited width, and then says for each flag what
it is for, in a second column. A flag too long for the first column has a line to itself.
-/

namespace Tabular

namespace Flag

/-- The values of a flag, among braces. -/
def alternatives (values : List Text) : Text := ['{'] ++ Text.join [','] values ++ ['}']

/-- The name of a flag's value. -/
def placeholder : Flag → Option Text
  | host => some ['H', 'O', 'S', 'T']
  | port => some ['P', 'O', 'R', 'T']
  | directory => some ['D', 'A', 'T', 'A', '_', 'D', 'I', 'R']
  | httpPort => some ['H', 'T', 'T', 'P', '_', 'P', 'O', 'R', 'T']
  | metricsPort => some ['M', 'E', 'T', 'R', 'I', 'C', 'S', '_', 'P', 'O', 'R', 'T']
  | level => some (alternatives (LogLevel.all.map LogLevel.text))
  | format => some (alternatives (LogFormat.all.map LogFormat.text))
  | help | http | noMetrics | version => none

/-- What a flag is for. -/
def purpose : Flag → String
  | help => "show this help message and exit"
  | host => "Interface to bind (default from TABDB_SERVER__HOST)"
  | port => "Line-protocol TCP port"
  | directory => "Directory holding the databases"
  | http => "Also serve the HTTP API"
  | httpPort => "HTTP API port"
  | metricsPort => "Prometheus metrics port"
  | noMetrics => "Do not expose metrics"
  | level => "Log level"
  | format => "Log format"
  | version => "show program's version number and exit"

/-- A spelling of a flag with the name of its value. -/
def withPlaceholder (spelling : Text) (f : Flag) : Text :=
  match f.placeholder with
  | some name => spelling ++ [' '] ++ name
  | none => spelling

/-- A flag as the usage shows it, by its shortest spelling. -/
def usage (f : Flag) : Text :=
  let spelling := if f = help then ['-', 'h'] else f.text
  ['['] ++ f.withPlaceholder spelling ++ [']']

/-- A flag as the first column shows it, by all of its spellings. -/
def entry (f : Flag) : Text :=
  let spelling := if f = help then ['-', 'h', ',', ' '] ++ f.text else f.text
  f.withPlaceholder spelling

end Flag

namespace Help

/-- The most characters on a line of the usage. -/
def width : Nat := 78

/-- Where the second column begins. -/
def column : Nat := 24

def blanks (n : Nat) : Text := List.replicate n ' '

/-- Words put on lines, as many on each as fit, after a first line that has begun. -/
def fill (margin : Nat) : (line : Text) → List Text → List Text
  | line, [] => [line]
  | line, word :: words =>
    if width < line.length + 1 + word.length then line :: fill margin (blanks margin ++ word) words
    else fill margin (line ++ [' '] ++ word) words

/-- How the program is called. -/
def usage : List Text :=
  let front := ['u', 's', 'a', 'g', 'e', ':', ' '] ++ Program.name
  fill (front.length + 1) front (Flag.all.map Flag.usage)

/-- The lines about a flag. -/
def about (f : Flag) : List Text :=
  let front := blanks 2 ++ f.entry
  let purpose := f.purpose.toList
  if front.length + 2 ≤ column then [front ++ blanks (column - front.length) ++ purpose]
  else [front, blanks column ++ purpose]

/-- All lines of the help. -/
def lines : List Text :=
  usage ++ [[], Program.name ++ " - line-protocol table store".toList, [], "options:".toList] ++
    Flag.all.flatMap about

end Help

end Tabular
