import Tabular.Number.Natural

/-!
# Doubles

A double is a sign and a rank: the place of its magnitude among all magnitudes, zero first and
infinity last. Every finite magnitude is a whole number of units of 2^-1074, so doubles are
compared, and fractions rounded to them, in exact arithmetic. A fraction goes to the nearest
double and halfway between two to the one with an even last digit, which is the one of even rank.
-/

namespace Tabular

structure Binary64 where
  negative : Bool
  rank : Nat
  deriving DecidableEq, Repr

namespace Binary64

/-- The number of ranks over which the distance between neighbours stays the same. -/
def span : Nat := Nat.pow 2 52

/-- The rank of infinity, past all finite magnitudes. -/
def infiniteRank : Nat := 2047 * span

/-- The units in one. -/
def one : Nat := Nat.pow 2 1074

/-- A quotient to the nearest whole number, halves to the even one. -/
def roundDiv (n d : Nat) : Nat :=
  let q := n / d
  let r := n % d
  if 2 * r < d then q else if d < 2 * r then q + 1 else q + q % 2

/-- The rank of the double nearest to `n / d` units. Above `2 ^ 53` units the neighbours are
`2 ^ shift` units apart. -/
def rankOf (n d : Nat) : Nat :=
  let shift := (n / d).log2 - 52
  min infiniteRank (shift * span + roundDiv n (d * Nat.pow 2 shift))

/-- The units of a finite magnitude. -/
def unitsOf (rank : Nat) : Nat :=
  let shift := rank / span - 1
  (rank - shift * span) * Nat.pow 2 shift

/-- The double nearest to a fraction. -/
def ofFraction (negative : Bool) (n d : Nat) : Binary64 := ⟨negative, rankOf (n * one) d⟩

/-- The double nearest to `n * 10 ^ exponent`. -/
def ofDecimal (negative : Bool) (n : Nat) : (exponent : Int) → Binary64
  | .ofNat e => ofFraction negative (n * Nat.pow 10 e) 1
  | .negSucc e => ofFraction negative n (Nat.pow 10 (e + 1))

def isFinite (x : Binary64) : Bool := x.rank < infiniteRank

/-- The word that holds the double: the sign in the highest of 64 bits, then the rank. -/
def bits (x : Binary64) : Nat := (if x.negative then Nat.pow 2 63 else 0) + x.rank

/-- A double as a place on a line of units with both infinities; zeros of both signs share one. -/
inductive Place where
  | below
  | units (n : Int)
  | above
  deriving DecidableEq, Repr

namespace Place

def compare : Place → Place → Ordering
  | below, below => .eq
  | below, _ => .lt
  | units _, below => .gt
  | units m, units n => Ord.compare m n
  | units _, above => .lt
  | above, above => .eq
  | above, _ => .gt

end Place

def place (x : Binary64) : Place :=
  if x.isFinite then
    .units (if x.negative then -(unitsOf x.rank : Int) else unitsOf x.rank)
  else if x.negative then .below else .above

example : (ofDecimal false 1 0).bits = 0x3FF0000000000000 := by decide +kernel
example : (ofDecimal true 1 (-1)).bits = 0xBFB999999999999A := by decide +kernel
example : (ofDecimal false 5 (-324)).bits = 1 ∧ (ofDecimal false 2 (-324)).bits = 0 := by
  decide +kernel
example : (ofDecimal false 17976931348623159 292).bits = 0x7FF0000000000000 := by decide +kernel
example : unitsOf (ofDecimal false 3 0).rank = 3 * one := by decide +kernel

end Binary64

end Tabular
