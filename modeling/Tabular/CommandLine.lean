import Tabular.Program
import Tabular.Settings.Environment
import Tabular.Text.Quoted

/-!
# The command line

A long flag may be cut short as long as no other flag begins like it, and its value may follow it
or stand behind an equals sign in the same argument; there `--` is no value and leaves the flag
blank. An argument after `--` is no flag. Arguments that are neither flags nor values of flags are
collected and turned down together at the end; the last value of a flag holds.
-/

namespace Tabular

inductive Flag where
  | help | host | port | directory | http | httpPort | metricsPort | noMetrics | level | format
  | version
  deriving DecidableEq, Repr

namespace Flag

def text : Flag → Text
  | help => ['-', '-', 'h', 'e', 'l', 'p']
  | host => ['-', '-', 'h', 'o', 's', 't']
  | port => ['-', '-', 'p', 'o', 'r', 't']
  | directory => ['-', '-', 'd', 'a', 't', 'a', '-', 'd', 'i', 'r']
  | http => ['-', '-', 'h', 't', 't', 'p']
  | httpPort => ['-', '-', 'h', 't', 't', 'p', '-', 'p', 'o', 'r', 't']
  | metricsPort => ['-', '-', 'm', 'e', 't', 'r', 'i', 'c', 's', '-', 'p', 'o', 'r', 't']
  | noMetrics => ['-', '-', 'n', 'o', '-', 'm', 'e', 't', 'r', 'i', 'c', 's']
  | level => ['-', '-', 'l', 'o', 'g', '-', 'l', 'e', 'v', 'e', 'l']
  | format => ['-', '-', 'l', 'o', 'g', '-', 'f', 'o', 'r', 'm', 'a', 't']
  | version => ['-', '-', 'v', 'e', 'r', 's', 'i', 'o', 'n']

def all : List Flag :=
  [help, host, port, directory, http, httpPort, metricsPort, noMetrics, level, format, version]

/-- The spellings of a flag, as messages name it. -/
def spellings : Flag → Text
  | help => ['-', 'h', '/'] ++ text help
  | f => f.text

def takesValue : Flag → Bool
  | help | http | noMetrics | version => false
  | host | port | directory | httpPort | metricsPort | level | format => true

end Flag

/-- What is wrong with a command line. -/
inductive CommandLineFault where
  | ambiguous (argument : Text) (candidates : List Flag)
  | noValue (flag : Flag)
  | unusedValue (flag : Flag) (value : Text)
  | notInteger (flag : Flag) (value : Text)
  | notChoice (flag : Flag) (value : Text) (choices : List Text)
  | unrecognized (arguments : List Text)
  deriving DecidableEq, Repr

def CommandLineFault.message : CommandLineFault → Message
  | .ambiguous argument candidates =>
    ["ambiguous option: ", argument, " could match ",
      Text.join [',', ' '] (candidates.map Flag.text)]
  | .noValue flag => ["argument ", flag.spellings, ": expected one argument"]
  | .unusedValue flag value =>
    ["argument ", flag.spellings, ": ignored explicit argument ", Text.quoted value]
  | .notInteger flag value =>
    ["argument ", flag.spellings, ": invalid int value: ", Text.quoted value]
  | .notChoice flag value choices =>
    ["argument ", flag.spellings, ": invalid choice: ", Text.quoted value, " (choose from ",
      Text.join [',', ' '] (choices.map Text.quoted), ")"]
  | .unrecognized arguments => ["unrecognized arguments: ", Text.join [' '] arguments]

/-- Why the program ends before it starts to work. -/
inductive Stop where
  | help
  | version
  | fault (cause : CommandLineFault)
  deriving DecidableEq, Repr

/-- What the command line says about a field: nothing, that it is blank, or its value. -/
inductive Override (α : Type) where
  | absent
  | blank
  | value (a : α)
  deriving DecidableEq, Repr

/-- A field under an override; a blank field has no value. -/
def Override.over {α : Type} (o : Override α) (a : α) : Option α :=
  match o with
  | absent => some a
  | blank => none
  | value b => some b

/-- What the command line asks for; what it does not name stays as the environment sets it. -/
structure CommandLine where
  host : Override Text
  port : Override Int
  directory : Override Text
  http : Bool
  httpPort : Override Int
  metricsPort : Override Int
  noMetrics : Bool
  level : Override LogLevel
  format : Override LogFormat
  deriving DecidableEq, Repr

/-- What is in force when the program starts: settings, of which the command line may have left
some without a value, and whether routes are served too. -/
structure Configuration where
  directory : Option Text
  suffix : Text
  safe : Bool
  mode : InsertMode
  host : Option Text
  port : Option Int
  httpPort : Option Int
  metricsPort : Option Int
  maxLineBytes : Int
  level : Option LogLevel
  format : Option LogFormat
  metrics : Bool
  endpoint : Option Text
  service : Text
  console : Bool
  routes : Bool
  deriving DecidableEq, Repr

namespace CommandLine

def empty : CommandLine :=
  ⟨.absent, .absent, .absent, false, .absent, .absent, false, .absent, .absent⟩

/-! ## Arguments one by one -/

/-- An argument by its look: a flag, perhaps with a value in the same argument; `--`; a text that
looks like a flag and is none; any other text. -/
inductive Argument where
  | flag (flag : Flag) (value : Option Text)
  | separator
  | unknown (text : Text)
  | plain (text : Text)
  deriving DecidableEq, Repr

/-- What stands before the first equals sign of an argument, and what stands after it. -/
def splitValue (t : Text) : Text × Option Text :=
  match t.dropWhile (· != '=') with
  | [] => (t, none)
  | _ :: value => (t.takeWhile (· != '='), some value)

/-- A text without the line feed at its end, if it ends with one. -/
def dropLineFeed (t : Text) : Text := if t.getLast? = some '\n' then t.dropLast else t

/-- Does the text look like a number below zero? A line feed after it makes no difference. -/
def isNegativeNumber (t : Text) : Bool :=
  match dropLineFeed t with
  | '-' :: t =>
    match Numeral.spanDigits t with
    | (whole, []) => !whole.isEmpty
    | (_, '.' :: digits) => (Numeral.fraction? digits).isSome
    | _ => false
  | _ => false

/-- A text that begins with a dash and names no flag. -/
def nameless (t : Text) : Argument :=
  if isNegativeNumber t || t.elem ' ' then .plain t else .unknown t

/-- The short flag, with what stands after it: itself again any number of times, at first perhaps
behind an equals sign. What is left is a value, which the flag cannot use. -/
def short : Text → Argument
  | ['='] => .flag .help (some [])
  | '=' :: t => .flag .help (unused t)
  | t => .flag .help (unused t)
where
  unused (t : Text) : Option Text :=
    match t.dropWhile (· == 'h') with
    | [] => none
    | rest => some rest

/-- A text that begins with two dashes. -/
def long (t : Text) : Except CommandLineFault Argument :=
  let (name, value) := splitValue t
  match Flag.all.find? (·.text == name) with
  | some flag => .ok (.flag flag value)
  | none =>
    match Flag.all.filter (name.isPrefixOf ·.text) with
    | [] => .ok (nameless t)
    | [flag] => .ok (.flag flag value)
    | candidates => .error (.ambiguous t candidates)

/-- An argument that stands before any `--`. -/
def argument : Text → Except CommandLineFault Argument
  | '-' :: '-' :: t => long ('-' :: '-' :: t)
  | ['-'] => .ok (.plain ['-'])
  | '-' :: 'h' :: t => .ok (short t)
  | '-' :: t => .ok (nameless ('-' :: t))
  | t => .ok (.plain t)

/-- The arguments by their look. -/
def arguments : List Text → Except CommandLineFault (List Argument)
  | [] => .ok []
  | ['-', '-'] :: ts => .ok (.separator :: ts.map .plain)
  | t :: ts => do
    let a ← argument t
    return a :: (← arguments ts)

/-! ## Flags and their values -/

def integer (flag : Flag) (value : Text) : Except Stop Int :=
  match Numeral.integer? value with
  | some n => .ok n
  | none => .error (.fault (.notInteger flag value))

def choice {α : Type} (flag : Flag) (choices : List α) (text : α → Text) (value : Text) :
    Except Stop α :=
  match choices.find? (text · == value) with
  | some a => .ok a
  | none => .error (.fault (.notChoice flag value (choices.map text)))

/-- A value that is read unless the flag is left blank. -/
def override {α : Type} (value : Text) (read : Text → Except Stop α) : Except Stop (Override α) :=
  if value = ['-', '-'] then .ok .blank else (read value).map .value

/-- The command line after a flag with a value. -/
def give (c : CommandLine) (flag : Flag) (value : Text) : Except Stop CommandLine :=
  match flag with
  | .host => (override value .ok).map fun o => { c with host := o }
  | .port => (override value (integer flag)).map fun o => { c with port := o }
  | .directory =>
    (override value fun t => .ok (Text.plainPath t)).map fun o => { c with directory := o }
  | .httpPort => (override value (integer flag)).map fun o => { c with httpPort := o }
  | .metricsPort => (override value (integer flag)).map fun o => { c with metricsPort := o }
  | .level =>
    (override value (choice flag LogLevel.all LogLevel.text)).map fun o => { c with level := o }
  | .format =>
    (override value (choice flag LogFormat.all LogFormat.text)).map fun o => { c with format := o }
  | .help | .http | .noMetrics | .version => .error (.fault (.unusedValue flag value))

/-- The command line after a flag without a value. -/
def raise (c : CommandLine) (flag : Flag) : Except Stop CommandLine :=
  match flag with
  | .help => .error .help
  | .version => .error .version
  | .http => .ok { c with http := true }
  | .noMetrics => .ok { c with noMetrics := true }
  | .host | .port | .directory | .httpPort | .metricsPort | .level | .format =>
    .error (.fault (.noValue flag))

/-- Take arguments in order; the texts that no flag takes are given back. -/
def take (c : CommandLine) : List Argument → Except Stop (CommandLine × List Text)
  | [] => .ok (c, [])
  | .separator :: rest => do
    let (c, others) ← take c rest
    return (c, ['-', '-'] :: others)
  | .unknown t :: rest => do
    let (c, others) ← take c rest
    return (c, t :: others)
  | .plain t :: rest => do
    let (c, others) ← take c rest
    return (c, t :: others)
  | .flag flag (some value) :: rest => do take (← c.give flag value) rest
  | .flag flag none :: .plain t :: rest =>
    if flag.takesValue then do take (← c.give flag t) rest
    else do
      let (c, others) ← take (← c.raise flag) rest
      return (c, t :: others)
  | .flag flag none :: rest => do take (← c.raise flag) rest

/-- Read a command line. -/
def ofArguments (ts : List Text) : Except Stop CommandLine := do
  let found ← (arguments ts).mapError .fault
  let (c, others) ← take empty found
  if others.isEmpty then return c else .error (.fault (.unrecognized others))

/-! ## Settings -/

/-- Settings changed as the command line asks. Its numbers are taken as they are. -/
def apply (c : CommandLine) (s : Settings) : Configuration where
  directory := c.directory.over s.storage.directory
  suffix := s.storage.suffix
  safe := s.storage.safe
  mode := s.storage.mode
  host := c.host.over s.server.host
  port := c.port.over s.server.port
  httpPort := c.httpPort.over s.server.httpPort
  metricsPort := c.metricsPort.over s.server.metricsPort
  maxLineBytes := s.server.maxLineBytes
  level := c.level.over s.report.level
  format := c.format.over s.report.format
  metrics := s.report.metrics && !c.noMetrics
  endpoint := s.report.endpoint
  service := s.report.service
  console := s.report.console
  routes := c.http

/-- Why there are no settings: the command line ends the program, or the environment is wrong. -/
inductive Refusal where
  | commandLine (stop : Stop)
  | environment (fault : Settings.Fault)

/-- What a command line and an environment make together. The command line is read first. -/
def configure (ts : List Text) (env : List (Text × Text)) : Except Refusal Configuration := do
  let c ← (ofArguments ts).mapError .commandLine
  let s ← (Settings.ofEnvironment env).mapError .environment
  return c.apply s

end CommandLine

/-- The last line that a fault of the command line leaves. -/
def CommandLineFault.line (f : CommandLineFault) : Message :=
  Program.name :: ": error: " :: f.message

end Tabular
