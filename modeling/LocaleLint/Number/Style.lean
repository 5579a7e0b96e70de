import LocaleLint.Number.Shortest

/-! # The written form of a number

A number is written with its shortest digits: positionally while its leading digit stands near the
point, and otherwise as a leading digit, a fraction and a power of ten. -/

namespace LocaleLint

/-- How numbers are written. -/
structure NumberStyle where
  /-- The least power of ten of a leading digit that is written positionally. -/
  leastPositional : Int
  /-- The greatest power of ten of a leading digit that is written positionally. -/
  greatestPositional : Int
  /-- What follows a positional whole number. -/
  wholeEnd : List Char
  /-- The mark before a power of ten. -/
  exponentMark : Char
  /-- The least number of digits of a power of ten. -/
  exponentWidth : Nat
  /-- The text of an infinity. -/
  infinite : List Char
  /-- The text of what is not a number. -/
  notANumber : List Char

namespace NumberStyle

/-- Numbers are positional from `0.0001` up to below `10 ^ 16`, whole ones end in `.0`, and a power of
    ten has a sign and two digits. -/
def standard : NumberStyle :=
  ⟨-4, 15, ".0".toList, 'e', 2, "inf".toList, "nan".toList⟩

/-- Digits with the point after the first `whole` of them, zeros filling the places without a digit. -/
def positional (style : NumberStyle) (digits : List Char) (whole : Int) : List Char :=
  if whole ≤ 0 then '0' :: '.' :: List.replicate (-whole).toNat '0' ++ digits
  else
    let n := whole.toNat
    if digits.length ≤ n then digits ++ List.replicate (n - digits.length) '0' ++ style.wholeEnd
    else digits.take n ++ '.' :: digits.drop n

/-- A leading digit, the other digits as a fraction, and a power of ten. -/
def scientific (style : NumberStyle) (digits : List Char) (power : Int) : List Char :=
  let fraction := digits.drop 1
  digits.take 1 ++ (if fraction.isEmpty then [] else '.' :: fraction) ++
    style.exponentMark :: (if power < 0 then '-' else '+') :: Text.decimalPadded style.exponentWidth power.natAbs

def write (style : NumberStyle) (x : Binary64) : List Char :=
  let magnitude :=
    match x with
    | .infinite _ => style.infinite
    | .finite _ m q =>
      let d : Decimal := if m = 0 then ⟨0, 0⟩ else Binary64.shortest m q
      let digits := Text.decimal d.coefficient
      let power := d.exponent + digits.length - 1
      if style.leastPositional ≤ power ∧ power ≤ style.greatestPositional then
        style.positional digits (power + 1)
      else style.scientific digits power
  if x.isNegative then '-' :: magnitude else magnitude

example : standard.write (Binary64.ofDecimal false 15 (-4)) = "0.0015".toList := by decide +kernel
example : standard.write (Binary64.ofDecimal true 0 0) = "-0.0".toList := by decide +kernel
example : standard.write (Binary64.ofDecimal false 5 (-324)) = "5e-324".toList := by decide +kernel
example : standard.write (Binary64.ofDecimal false 1 16) = "1e+16".toList := by decide +kernel

end NumberStyle

end LocaleLint
