import Tabular.CommandLine
import Tabular.Connection
import Tabular.Http
import Tabular.Json.Reader
import Tabular.Main
import Tabular.Metrics
import Tabular.Registry
import Tabular.Proofs.Except
import Tabular.Proofs.Table.Sound
import Tabular.Proofs.Table.Operations
import Tabular.Proofs.Table.Reading
import Tabular.Proofs.Table.Writing
import Tabular.Proofs.Table.Changes
import Tabular.Proofs.Archive.Content
import Tabular.Proofs.Statement.Names
import Tabular.Proofs.Disk.Calls
import Tabular.Proofs.Archive.Work
import Tabular.Proofs.Text.Sorted
import Tabular.Proofs.Archive.Tables
import Tabular.Proofs.Archive.Databases
import Tabular.Proofs.Catalog.Work
import Tabular.Proofs.Catalog.Tables
import Tabular.Proofs.Archive.Alike
import Tabular.Proofs.Catalog.Alongside
import Tabular.Proofs.Catalog.InStep
import Tabular.Proofs.Catalog.Written
import Tabular.Proofs.Engine.Statements
import Tabular.Proofs.Catalog.WriteThrough
import Tabular.Proofs.Engine.WriteThrough
import Tabular.Proofs.Engine.Commands
import Tabular.Proofs.Engine.Events
import Tabular.Proofs.Engine.Chronicle
import Tabular.Proofs.Engine.InStep
import Tabular.Proofs.Engine.Appending
import Tabular.Proofs.Action.Refused
import Tabular.Proofs.Disk.Refused
import Tabular.Proofs.Archive.Refused
import Tabular.Proofs.Archive.RefusedTables
import Tabular.Proofs.Catalog.Refused
import Tabular.Proofs.Catalog.Outcomes
import Tabular.Proofs.Catalog.Sane
import Tabular.Proofs.Catalog.Filed
import Tabular.Proofs.Catalog.Lined
import Tabular.Proofs.Catalog.Standing
import Tabular.Proofs.Engine.Refused
import Tabular.Proofs.Engine.Weather
import Tabular.Proofs.Engine.Rejections
import Tabular.Proofs.Engine.Schema
import Tabular.Proofs.Engine.Persisting
import Tabular.Proofs.Engine.Ids
import Tabular.Proofs.Condition.Grammar
import Tabular.Proofs.Engine.Sessions
import Tabular.Proofs.Connection.Answers
import Tabular.Proofs.Failure.Balks
import Tabular.Proofs.Value.Overlong
import Tabular.Proofs.Value.Order
import Tabular.Proofs.Condition.Stumbling
import Tabular.Proofs.Statement.Spelling
import Tabular.Proofs.Table.Stumbling
import Tabular.Proofs.Catalog.Stumbling
import Tabular.Proofs.Catalog.Sound
import Tabular.Proofs.Engine.Sound
import Tabular.Proofs.Engine.Stumbling
import Tabular.Proofs.Condition.Texts
import Tabular.Proofs.Connection.Framing
import Tabular.Proofs.Statement.Texts
import Tabular.Proofs.Table.Texts
import Tabular.Proofs.Connection.Received
import Tabular.Proofs.Statement.Grammar
import Tabular.Proofs.Statement.Gaps
import Tabular.Proofs.Catalog.Resident
import Tabular.Proofs.Engine.Selections
import Tabular.Proofs.Action.Abreast
import Tabular.Proofs.Disk.Abreast
import Tabular.Proofs.Archive.Abreast
import Tabular.Proofs.Catalog.Abreast
import Tabular.Proofs.Engine.Abreast
import Tabular.Proofs.Catalog.Apart
import Tabular.Proofs.Engine.Apart
import Tabular.Proofs.Catalog.Regular
import Tabular.Proofs.Engine.Calm
import Tabular.Proofs.Engine.Footprint
import Tabular.Proofs.Archive.OneFile
import Tabular.Proofs.Engine.Dropping
import Tabular.Proofs.Archive.Halted
import Tabular.Proofs.Engine.Halted
import Tabular.Proofs.Table.Matching
import Tabular.Proofs.Table.Shown
import Tabular.Proofs.Engine.Shown
import Tabular.Proofs.Condition.LetterCase
import Tabular.Proofs.Table.LetterCase
import Tabular.Proofs.Statement.LetterCase
import Tabular.Proofs.Engine.LetterCase
import Tabular.Proofs.Token.Words
import Tabular.Proofs.Statement.Composed
import Tabular.Proofs.Table.Rows
import Tabular.Proofs.Catalog.Rows
import Tabular.Proofs.Engine.Reserved
import Tabular.Proofs.Engine.Fidelity
import Tabular.Proofs.Join.Selecting
import Tabular.Proofs.Table.WellFormed
import Tabular.Proofs.Condition.Grouping
import Tabular.Proofs.Condition.Parentheses
import Tabular.Proofs.Statement.Parentheses
import Tabular.Proofs.Engine.Grouping
import Tabular.Proofs.Token.ReadBack
import Tabular.Proofs.Condition.Printed
import Tabular.Proofs.Table.Alterations
import Tabular.Proofs.Condition.Faults
import Tabular.Proofs.Number.Ranks
import Tabular.Proofs.Number.Nearest
import Tabular.Proofs.Value.Rationals
import Tabular.Proofs.Statement.Finding
import Tabular.Proofs.Table.Finding
import Tabular.Proofs.Engine.Finding
import Tabular.Proofs.Join.Symmetry
import Tabular.Proofs.Token.Spacing
import Tabular.Proofs.Statement.Numbers
import Tabular.Proofs.Engine.ErrorLines
import Tabular.Proofs.Registry.Requests
import Tabular.Proofs.CommandLine.Overrides
import Tabular.Proofs.Engine.Reports
import Tabular.Proofs.Archive.Faults
import Tabular.Proofs.Statement.Written
import Tabular.Proofs.Cursor.Commands
