import Tabular.Text.Basic

/-!
# The program

Its name and version, as it shows them.
-/

namespace Tabular.Program

def name : Text := ['t', 'a', 'b', 'd', 'b']

def version : Text := ['0', '.', '1', '.', '0']

end Tabular.Program
