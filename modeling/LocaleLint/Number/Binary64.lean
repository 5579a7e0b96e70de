/-! # Binary floating-point numbers

A number of 64 bits is `mantissa · 2 ^ exponent` with a sign, or an infinity. Every operation here is
exact arithmetic on natural numbers followed by one rounding to the nearest representable number, a
tie going to the even mantissa. What is not a number is no `Binary64`: an operation without a result
gives `none`. -/

namespace LocaleLint

/-- A number of 64 bits; a finite one has `mantissa < 2 ^ 53` and, unless its exponent is the least,
    `2 ^ 52 ≤ mantissa`. -/
inductive Binary64 where
  | finite (negative : Bool) (mantissa : Nat) (exponent : Int)
  | infinite (negative : Bool)
  deriving DecidableEq, Repr, Inhabited

/-- The quotient rounded to the nearest natural number, a tie going to the even one. -/
def roundDiv (num den : Nat) : Nat :=
  let floor := num / den
  let twice := 2 * (num % den)
  if twice < den then floor
  else if twice > den then floor + 1
  else if floor % 2 = 0 then floor else floor + 1

namespace Binary64

def leastExponent : Int := -1074

/-- The greatest exponent of a finite number. -/
def greatestExponent : Int := 971

def zero (negative : Bool) : Binary64 := .finite negative 0 leastExponent

/-- The exponent at which a positive quotient has a mantissa of 53 bits, but never below the least. -/
def scale (num den : Nat) : Int :=
  let guess : Int := (num.log2 : Int) - (den.log2 : Int) - 52
  let short := num * Nat.pow 2 (-guess).toNat < Nat.pow 2 52 * (den * Nat.pow 2 guess.toNat)
  max (if short then guess - 1 else guess) leastExponent

/-- The number nearest to a quotient, whose denominator is not zero. -/
def ofRatio (negative : Bool) (num den : Nat) : Binary64 :=
  if num = 0 then zero negative
  else
    let q := scale num den
    let m := roundDiv (num * Nat.pow 2 (-q).toNat) (den * Nat.pow 2 q.toNat)
    let (m, q) := if m = Nat.pow 2 53 then (Nat.pow 2 52, q + 1) else (m, q)
    if q > greatestExponent then .infinite negative else .finite negative m q

/-- The number nearest to `± coefficient · 10 ^ exponent`. An exponent far outside the range of the
    numbers is settled without writing the power out. -/
def ofDecimal (negative : Bool) (coefficient : Nat) (exponent : Int) : Binary64 :=
  let magnitude : Int := ((Nat.toDigits 10 coefficient).length : Int) + exponent
  if coefficient = 0 then zero negative
  else if magnitude > 310 then .infinite negative
  else if magnitude < -330 then zero negative
  else ofRatio negative (coefficient * Nat.pow 10 exponent.toNat) (Nat.pow 10 (-exponent).toNat)

/-- The number nearest to a natural number, if that is finite. -/
def ofNat? (n : Nat) : Option Binary64 :=
  match ofRatio false n 1 with
  | .infinite _ => none
  | x => some x

def isNegative : Binary64 → Bool
  | finite negative _ _ => negative
  | infinite negative => negative

def neg : Binary64 → Binary64
  | finite negative m q => .finite (!negative) m q
  | infinite negative => .infinite (!negative)

/-- The magnitude of a finite number in units of the least exponent. -/
def units (mantissa : Nat) (exponent : Int) : Nat := mantissa * Nat.pow 2 (exponent - leastExponent).toNat

/-- The signed magnitude of a finite number in units of the least exponent. -/
def signedUnits (negative : Bool) (mantissa : Nat) (exponent : Int) : Int :=
  if negative then -(units mantissa exponent : Int) else units mantissa exponent

/-- The sum; opposite infinities have none. -/
def add : Binary64 → Binary64 → Option Binary64
  | finite s m q, finite s' m' q' =>
    let sum := signedUnits s m q + signedUnits s' m' q'
    let negative := if sum = 0 then s && s' else sum < 0
    some (ofRatio negative sum.natAbs (Nat.pow 2 (-leastExponent).toNat))
  | infinite s, infinite s' => if s = s' then some (.infinite s) else none
  | infinite s, finite .. => some (.infinite s)
  | finite .., infinite s => some (.infinite s)

/-- The product; zero times an infinity has none. -/
def mul : Binary64 → Binary64 → Option Binary64
  | finite s m q, finite s' m' q' =>
    let e := q + q'
    some (ofRatio (s != s') (m * m' * Nat.pow 2 e.toNat) (Nat.pow 2 (-e).toNat))
  | infinite s, finite s' m _ => if m = 0 then none else some (.infinite (s != s'))
  | finite s m _, infinite s' => if m = 0 then none else some (.infinite (s != s'))
  | infinite s, infinite s' => some (.infinite (s != s'))

/-- Whether two numbers are equal in value: the two zeros are. -/
def sameValue : Binary64 → Binary64 → Bool
  | finite s m q, finite s' m' q' => signedUnits s m q == signedUnits s' m' q'
  | infinite s, infinite s' => s == s'
  | _, _ => false

/-- Whether a number has exactly the value of an integer. -/
def isInt (x : Binary64) (n : Int) : Bool :=
  match x with
  | finite s m q => signedUnits s m q == n * Int.ofNat (Nat.pow 2 (-leastExponent).toNat)
  | infinite _ => false

example : ofDecimal false 1 0 = .finite false (2 ^ 52) (-52) := by decide +kernel
example : ofDecimal false 9007199254740993 0 = .finite false (2 ^ 52) 1 := by decide +kernel
example : ofDecimal true 5 (-324) = .finite true 1 (-1074) ∧ ofDecimal false 1 309 = .infinite false := by
  decide +kernel

end Binary64

end LocaleLint
