import Tabular.Text.PathName

/-!
# Paths

A path is the names on the way to a file, from the root of a disk down. Two points lead back up; an
empty name or a single point leads nowhere. A path whose first name is made of slashes does not
begin at the root but at the top of the file system.
-/

namespace Tabular

/-- The names on the way. -/
abbrev Path := List Text

namespace Path

/-- The top of the file system. -/
def top : Path := [['/']]

/-- The path of a file that is named from a directory. A name that begins with a slash does not
depend on the directory. -/
def under (p : Path) (name : Text) : Path :=
  match Text.rootSlashes name with
  | [] => p ++ Text.pathParts name
  | slashes => slashes :: Text.pathParts name

/-- The path without its last name; nothing is above the root and the top. -/
def parent : Path → Path
  | ['/' :: slashes] => ['/' :: slashes]
  | p => p.dropLast

/-- How a path is written, given how the root is written. -/
def text (root : Text) : Path → Text
  | ('/' :: slashes) :: names => ('/' :: slashes) ++ Text.join ['/'] names
  | p => root ++ p.flatMap fun name => '/' :: name

/-- Does a null character stand in one of the names? -/
def hasNull (p : Path) : Bool := p.any (·.elem '\x00')

/-- Where a name leads from a place. -/
def step (here : Path) (name : Text) : Path :=
  if name = [] || name = ['.'] then here
  else if name = ['.', '.'] then here.parent
  else here ++ [name]

theorem under_of_isPlainName {p : Path} {name : Text} (h : Text.isPlainName name) :
    p.under name = p ++ [name] := by
  simp [under, Text.rootSlashes_of_isPlainName h, Text.pathParts_of_isPlainName h]

theorem step_of_isPlainName {here : Path} {name : Text} (h : Text.isPlainName name)
    (hd : name ≠ ['.', '.']) : here.step name = here ++ [name] := by
  simp only [Text.isPlainName, Bool.and_eq_true, decide_eq_true_eq] at h
  simp [step, h.1.2, h.2, hd]

example : under [['d']] ['a', '/', '/', 'b'] = [['d'], ['a'], ['b']] := by decide
example : under [['d']] ['/', 'a'] = [['/'], ['a']] ∧ under [['d']] [] = [['d']] := by decide

end Path

end Tabular
