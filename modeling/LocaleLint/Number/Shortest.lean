import LocaleLint.Number.Binary64
import LocaleLint.Text.Digit

/-! # The shortest decimal of a number

The reals that round to a number form an interval around it, whose ends belong to it exactly when the
mantissa is even. Of the decimals in that interval the shortest are those of the coarsest grid
`10 ^ k` that has a point there, and of these the one nearest to the number is taken. -/

namespace LocaleLint

/-- A decimal `coefficient · 10 ^ exponent`. -/
structure Decimal where
  coefficient : Nat
  exponent : Int
  deriving DecidableEq, Repr, Inhabited

/-- A decimal with at most a number of the trailing zeros of its coefficient moved into its exponent. -/
def Decimal.strip (d : Decimal) : Nat → Decimal
  | 0 => d
  | n + 1 =>
    if d.coefficient ≠ 0 ∧ d.coefficient % 10 = 0 then
      Decimal.strip ⟨d.coefficient / 10, d.exponent + 1⟩ n
    else d

namespace Binary64

/-- A positive number as four times an integer and a power of ten, with the distances from it to the
    ends of the interval of the reals that round to it, and whether the ends belong to it. -/
structure Neighbourhood where
  centre : Nat
  below : Nat
  above : Nat
  closed : Bool
  exponent : Int

def neighbourhood (mantissa : Nat) (exponent : Int) : Neighbourhood :=
  let unit := if exponent < 0 then Nat.pow 5 (-exponent).toNat else Nat.pow 2 exponent.toNat
  let narrow := mantissa = Nat.pow 2 52 ∧ exponent > leastExponent
  { centre := 4 * mantissa * unit
    below := if narrow then unit else 2 * unit
    above := 2 * unit
    closed := mantissa % 2 = 0
    exponent := min exponent 0 }

/-- Whether a point of the scale of the neighbourhood rounds to its centre. -/
def Neighbourhood.contains (n : Neighbourhood) (point : Nat) : Bool :=
  if n.closed then n.centre ≤ point + n.below && point ≤ n.centre + n.above
  else n.centre < point + n.below && point < n.centre + n.above

/-- The point of the grid `4 · 10 ^ k` that rounds to the centre, the nearer of two and of two equally
    near the even one. -/
def Neighbourhood.onGrid? (n : Neighbourhood) (k : Nat) : Option Decimal :=
  let step := 4 * Nat.pow 10 k
  let low := n.centre / step
  let rest := n.centre % step
  let lowIn := n.contains (low * step)
  let highIn := n.contains ((low + 1) * step)
  let decimal (c : Nat) : Decimal := ⟨c, n.exponent + k⟩
  match lowIn, highIn with
  | true, true =>
    if 2 * rest < step then some (decimal low)
    else if 2 * rest > step then some (decimal (low + 1))
    else some (decimal (if low % 2 = 0 then low else low + 1))
  | true, false => some (decimal low)
  | false, true => some (decimal (low + 1))
  | false, false => none

/-- The first grid, from a coarse one down, that has a point in the neighbourhood. -/
def Neighbourhood.coarsest (n : Neighbourhood) : Nat → Decimal
  | 0 => (n.onGrid? 0).getD ⟨n.centre / 4, n.exponent⟩
  | k + 1 => (n.onGrid? (k + 1)).getD (n.coarsest k)

/-- The shortest decimal that rounds to a positive number. -/
def shortest (mantissa : Nat) (exponent : Int) : Decimal :=
  let n := neighbourhood mantissa exponent
  (n.coarsest ((Text.decimal (n.centre / 4)).length)).strip 20

end Binary64

end LocaleLint
