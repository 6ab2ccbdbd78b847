import Tabular.CommandLine.Help
import Tabular.Connection

/-!
# The program on a command line

The program serves its standard input as one connection, over a disk that lasts as long as it
runs, and sends the answers to its standard output. All that it decides is decided elsewhere.
-/

namespace Tabular.Main

/-- The variables that the environment is asked for. -/
def variableNames : List String :=
  ["TABDB_STORAGE", "TABDB_STORAGE__DATA_DIR", "TABDB_STORAGE__TABLE_SUFFIX",
    "TABDB_STORAGE__FSYNC", "TABDB_STORAGE__INSERT_MODE", "TABDB_SERVER", "TABDB_SERVER__HOST",
    "TABDB_SERVER__PORT", "TABDB_SERVER__HTTP_PORT", "TABDB_SERVER__METRICS_PORT",
    "TABDB_SERVER__MAX_LINE_BYTES", "TABDB_OBSERVABILITY", "TABDB_OBSERVABILITY__LOG_LEVEL",
    "TABDB_OBSERVABILITY__LOG_FORMAT", "TABDB_OBSERVABILITY__METRICS_ENABLED",
    "TABDB_OBSERVABILITY__OTEL_ENDPOINT", "TABDB_OBSERVABILITY__OTEL_SERVICE_NAME",
    "TABDB_OBSERVABILITY__OTEL_CONSOLE_EXPORT"]

/-- The variables that are set. -/
def environment : IO (List (Text × Text)) :=
  variableNames.filterMapM fun name => do
    return (← IO.getEnv name).map fun value => (name.toList, value.toList)

/-- All bytes of a stream. -/
partial def readAll (input : IO.FS.Stream) (before : ByteArray) : IO ByteArray := do
  let block ← input.read 65536
  if block.isEmpty then return before else readAll input (before ++ block)

/-- Write texts on lines of their own and end with a code. -/
def leave (code : UInt32) (lines : List Text) : IO UInt32 := do
  let out ← if code = 0 then IO.getStdout else IO.getStderr
  for line in lines do out.putStrLn (String.ofList line)
  return code

/-- Serve standard input. -/
def serve (c : Configuration) : IO UInt32 := do
  let input ← readAll (← IO.getStdin) .empty
  let options : Engine.Options :=
    ⟨c.suffix, c.safe, c.mode, ['n', 'e', 'w', '-', 'f', 'i', 'l', 'e']⟩
  let engine := Engine.start options (Disk.empty (c.directory.getD ['.']))
  let (output, _) := Connection.run c.maxLineBytes.toNat none input.toList engine
  let out ← IO.getStdout
  out.write ⟨output.toArray⟩
  out.flush
  return 0

/-- The program with its arguments. -/
def run (args : List String) : IO UInt32 := do
  match CommandLine.configure (args.map String.toList) (← environment) with
  | .ok c => serve c
  | .error (.commandLine .help) => leave 0 Help.lines
  | .error (.commandLine .version) => leave 0 [Program.name ++ [' '] ++ Program.version]
  | .error (.commandLine (.fault f)) => leave 2 [f.line.text]
  | .error (.environment .unreadable) => leave 1 ["Settings are not JSON".toList]
  | .error (.environment (.invalid fields)) => leave 1 fields

end Tabular.Main

def main (args : List String) : IO UInt32 := Tabular.Main.run args
