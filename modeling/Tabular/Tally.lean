import Tabular.OrderedMap

/-!
# Tallies

A tally counts how often each of several things has happened.
-/

namespace Tabular

abbrev Tally (κ : Type) := OrderedMap κ Nat

namespace Tally

variable {κ : Type} [DecidableEq κ]

def count (t : Tally κ) (k : κ) : Nat := (t.get? k).getD 0

/-- Count one more. -/
def bump (t : Tally κ) (k : κ) : Tally κ := t.put k (count t k + 1)

@[simp] theorem count_empty (k : κ) : count (.empty : Tally κ) k = 0 := rfl

theorem count_bump (t : Tally κ) (k j : κ) :
    count (bump t k) j = count t j + if k = j then 1 else 0 := by
  unfold bump count
  rw [OrderedMap.get?_put]
  split
  · next h => subst h; simp
  · rfl

end Tally

end Tabular
