import Tabular.Number.Binary64

/-!
# The shortest text of a double

Of the decimals that read back as a double, those with the fewest digits are taken, and of these
the nearest to it. It is written positionally from 10^-4 up to below 10^16, with at least one
digit after the point, and otherwise with an exponent of at least two digits.
-/

namespace Tabular.Binary64

/-- The whole number `digits` times a power of ten. -/
structure Decimal where
  digits : Nat
  exponent : Int
  deriving DecidableEq, Repr

/-- The magnitude as a fraction of whole numbers. -/
def Decimal.fraction (d : Decimal) : Nat × Nat :=
  match d.exponent with
  | .ofNat e => (d.digits * Nat.pow 10 e, 1)
  | .negSucc e => (d.digits, Nat.pow 10 (e + 1))

def Decimal.readsBackAs (d : Decimal) (rank : Nat) : Bool :=
  (ofDecimal false d.digits d.exponent).rank == rank

/-- The largest `e` with `10 ^ e` at most `n / d`, for a positive fraction, from `e` downwards. -/
def exponentFrom (n d : Nat) : (steps : Nat) → (e : Int) → Int
  | 0, e => e
  | steps + 1, e =>
    let fits := match e with
      | .ofNat k => decide (Nat.pow 10 k * d ≤ n)
      | .negSucc k => decide (d ≤ n * Nat.pow 10 (k + 1))
    if fits then e else exponentFrom n d steps (e - 1)

/-- The decimal exponent of the first digit of a positive magnitude. No double reaches 10^309 or
falls below 10^-324. -/
def leadingExponent (rank : Nat) : Int := exponentFrom (unitsOf rank) one 633 308

/-- The two neighbours of a magnitude among the decimals with `count` digits, the nearer first and
of two equally near the one whose last digit is even. -/
def neighbours (rank count : Nat) : List Decimal :=
  let exponent := leadingExponent rank - ((count : Int) - 1)
  let (n, d) : Nat × Nat := match exponent with
    | .ofNat e => (unitsOf rank, one * Nat.pow 10 e)
    | .negSucc e => (unitsOf rank * Nat.pow 10 (e + 1), one)
  let near := roundDiv n d
  let other := if near * d ≤ n then near + 1 else near - 1
  [⟨near, exponent⟩, ⟨other, exponent⟩]

/-- The shortest decimal of a positive finite magnitude, trying `count` digits and then more. -/
def shortestFrom (rank : Nat) : (tries count : Nat) → Decimal
  | 0, count => (neighbours rank count).headD ⟨0, 0⟩
  | tries + 1, count =>
    match (neighbours rank count).find? (·.readsBackAs rank) with
    | some d => d
    | none => shortestFrom rank tries (count + 1)

/-- Seventeen digits always suffice. -/
def shortest (rank : Nat) : Decimal := shortestFrom rank 16 1

/-- The digits of a decimal without the zeros at their end, and the place of the point: the value
is `0.digits` times `10 ^ point`. -/
def Decimal.scientific (d : Decimal) : Text × Int :=
  let digits := Text.ofNat d.digits
  ((digits.reverse.dropWhile (· == '0')).reverse, d.exponent + digits.length)

/-- Digits with a point, or with an exponent when they are very large or small. -/
def layout (digits : Text) (point : Int) : Text :=
  if -4 < point ∧ point ≤ 16 then
    if point ≤ 0 then ['0', '.'] ++ List.replicate (-point).toNat '0' ++ digits
    else
      let whole := digits.take point.toNat
      let fraction := digits.drop point.toNat
      whole ++ List.replicate (point.toNat - whole.length) '0' ++ ['.'] ++
        (if fraction.isEmpty then ['0'] else fraction)
  else
    let e := point - 1
    let size := Text.ofNat e.natAbs
    digits.take 1 ++ (if digits.length ≤ 1 then [] else '.' :: digits.drop 1) ++
      ['e', if e < 0 then '-' else '+'] ++ List.replicate (2 - size.length) '0' ++ size

/-- The shortest text of a double. -/
def text (x : Binary64) : Text :=
  (if x.negative then ['-'] else []) ++
    if !x.isFinite then ['i', 'n', 'f']
    else if x.rank = 0 then ['0', '.', '0']
    else
      let (digits, point) := (shortest x.rank).scientific
      layout digits point

example : (ofDecimal false 1 (-1)).text = ['0', '.', '1'] := by decide +kernel
example : (ofDecimal false 1 16).text = ['1', 'e', '+', '1', '6'] := by decide +kernel

end Tabular.Binary64
