import Tabular.Engine

/-!
# Metrics

What an engine counts, as series of numbers with names and labels. A series with labels is there
once it has counted something; the others are always there.
-/

namespace Tabular

structure Series where
  name : String
  labels : List (String × Text)
  count : Nat
  deriving DecidableEq, Repr

namespace Series

/-- The name with the labels after it. -/
def title (s : Series) : Text :=
  s.name.toList ++ ['{'] ++
    Text.join [','] (s.labels.map fun l => l.1.toList ++ ['='] ++ l.2) ++ ['}']

end Series

namespace Engine

/-- The word for how commands ended. -/
def statusText (success : Bool) : Text :=
  if success then ['o', 'k'] else ['e', 'r', 'r', 'o', 'r']

/-- Commands by statement and by how they ended. -/
def commandSeries (e : Engine) : List Series :=
  e.commands.entries.map fun ((label, success), n) =>
    ⟨"tabdb_commands_total",
      [("statement", label.words.toList), ("status", statusText success)], n⟩

/-- Commands that were timed, by statement. -/
def timingSeries (e : Engine) : List Series :=
  e.timings.entries.map fun (label, n) =>
    ⟨"tabdb_command_latency_seconds_count", [("statement", label.words.toList)], n⟩

/-- Tables written, by mode. -/
def writeSeries (e : Engine) : List Series :=
  e.catalog.archive.writes.entries.map fun (mode, n) =>
    ⟨"tabdb_table_persists_total", [("mode", mode.text)], n⟩

/-- All series. -/
def series (e : Engine) : List Series :=
  commandSeries e ++ timingSeries e ++ writeSeries e ++
    [⟨"tabdb_table_persist_latency_seconds_count", [], e.catalog.archive.writes.values.foldl (· + ·) 0⟩,
      ⟨"tabdb_tables_loaded_total", [], e.catalog.archive.loads⟩,
      ⟨"tabdb_sessions_active", [], e.gauge⟩,
      ⟨"tabdb_databases_resident", [], e.catalog.gauge⟩]

end Engine

end Tabular
