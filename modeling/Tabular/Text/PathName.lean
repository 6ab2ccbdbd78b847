import Tabular.Text.Basic

/-!
# Path names

A path name in its plain form has no empty parts and no parts that are a single point. It keeps
the slash at its front, or both if there are exactly two; no parts at all are written as a point.
-/

namespace Tabular.Text

/-- The slashes that a plain path name keeps at its front. -/
def rootSlashes (t : Text) : Text :=
  match (t.takeWhile (· == '/')).length with
  | 0 => []
  | 2 => ['/', '/']
  | _ => ['/']

/-- The parts of a path name that name something. -/
def pathParts (t : Text) : List Text :=
  (pieces '/' t).filter fun part => part ≠ [] && part ≠ ['.']

/-- The plain form of a path name. -/
def plainPath (t : Text) : Text :=
  match rootSlashes t ++ join ['/'] (pathParts t) with
  | [] => ['.']
  | plain => plain

/-- Does the name stand for itself in a path: no slash in it, not empty and no single point? -/
def isPlainName (name : Text) : Bool := !name.elem '/' && name ≠ [] && name ≠ ['.']

theorem rootSlashes_of_isPlainName {name : Text} (h : isPlainName name) : rootSlashes name = [] := by
  cases name with
  | nil => rfl
  | cons c rest =>
    have hc : (c == '/') = false := by
      simp only [isPlainName, List.elem_eq_mem, List.mem_cons, not_or, Bool.and_eq_true,
        Bool.not_eq_eq_eq_not, Bool.not_true, decide_eq_false_iff_not] at h
      exact beq_eq_false_iff_ne.2 fun e => h.1.1.1 e.symm
    simp [rootSlashes, hc]

theorem pathParts_of_isPlainName {name : Text} (h : isPlainName name) : pathParts name = [name] := by
  simp only [isPlainName, List.elem_eq_mem, Bool.and_eq_true, Bool.not_eq_eq_eq_not,
    Bool.not_true, decide_eq_false_iff_not, decide_eq_true_eq] at h
  simp [pathParts, pieces, List.splitOn_eq_singleton h.1.1, h.1.2, h.2]

example : plainPath ['a', '/', '/', 'b', '/', '.', '/', 'c', '/'] = ['a', '/', 'b', '/', 'c'] := by
  decide
example : plainPath [] = ['.'] ∧ plainPath ['/', '/', '/'] = ['/'] := by decide

end Tabular.Text
