import LocaleLint.Number.Binary64
import LocaleLint.Text.Quoted

/-! # Fields of a line

A field of a line is a text or a number, written by a conversion with flags, a width and a precision. Some
conversions are for numbers only: a field that does not suit its conversion cannot be written. -/

namespace LocaleLint.Logging

open Text

/-- What a field holds. -/
inductive FieldValue where
  | text (s : List Char)
  | number (n : Nat)
  /-- A value of another kind by its printed form. -/
  | object (printed : List Char)
  deriving DecidableEq, Repr

/-- How a field is written. -/
structure FieldSpec where
  /-- Whether the blanks that make up the width come after the field. -/
  leftAligned : Bool
  /-- What stands before a number. -/
  sign : List Char
  /-- Whether a number keeps its base mark, its point or its zeros. -/
  alternate : Bool
  /-- Whether zeros make up the width of a number. -/
  zeroFilled : Bool
  width : Nat
  precision : Option Nat
  conversion : Char
  deriving DecidableEq, Repr

def padded (leftAligned : Bool) (width : Nat) (s : List Char) : List Char :=
  let blanks := List.replicate (width - s.length) ' '
  if leftAligned then s ++ blanks else blanks ++ s

/-- A number's text made up to the width of its field. The zeros of a filled one stand between what
    comes first and the digits. -/
def FieldSpec.fill (spec : FieldSpec) (before digits : List Char) : List Char :=
  let before := spec.sign ++ before
  let zeros :=
    if spec.zeroFilled && !spec.leftAligned then List.replicate (spec.width - (before ++ digits).length) '0' else []
  padded spec.leftAligned spec.width (before ++ zeros ++ digits)

/-- A text escaped so that only ASCII characters are left. -/
def asciiOnly (s : List Char) : List Char := s.flatMap fun c => if c.toNat < 0x80 then [c] else codeEscape c

/-! ### Whole numbers -/

/-- The base of a conversion for whole numbers, and the letter that marks it. -/
def baseOf? (conversion : Char) : Option (Nat × List Char) :=
  if conversion = 'd' ∨ conversion = 'i' ∨ conversion = 'u' then some (10, [])
  else if conversion = 'o' then some (8, ['0', 'o'])
  else if conversion = 'x' then some (16, ['0', 'x'])
  else if conversion = 'X' then some (16, ['0', 'X'])
  else none

/-- A whole number in a base. The precision is the least number of digits. -/
def FieldSpec.whole (spec : FieldSpec) (base : Nat) (mark : List Char) (n : Nat) : List Char :=
  let digits := Nat.toDigits base n
  let digits := if spec.conversion = 'X' then digits.map Char.toUpper else digits
  let zeros := List.replicate (spec.precision.getD 0 - digits.length) '0'
  spec.fill (if spec.alternate then mark else []) (zeros ++ digits)

/-! ### Numbers with a point -/

/-- Digits with a point after the first of them; without a fraction the point is kept on demand. -/
def withPoint (keepPoint : Bool) (whole fraction : List Char) : List Char :=
  if fraction.isEmpty && !keepPoint then whole else whole ++ '.' :: fraction

/-- A number rounded to a number of significant digits, and the power of ten of the first of them. -/
def significant (count n : Nat) : List Char × Nat :=
  let digits := decimal n
  if digits.length ≤ count then (digits ++ List.replicate (count - digits.length) '0', digits.length - 1)
  else
    let rounded := decimal (roundDiv n (Nat.pow 10 (digits.length - count)))
    (rounded.take count, digits.length - 1 + (rounded.length - count))

/-- A leading digit, a fraction of given length and a power of ten. -/
def withPower (keepPoint : Bool) (mark : Char) (places n : Nat) : List Char :=
  let (digits, power) := significant (places + 1) n
  withPoint keepPoint (digits.take 1) (digits.drop 1) ++ mark :: '+' :: decimalPadded 2 power

def dropZeros (s : List Char) : List Char := (s.reverse.dropWhile (· == '0')).reverse

/-- A number of given significant digits: positional while its power of ten is below their number. Zeros
    at the end of the fraction are dropped unless it is asked to keep them. -/
def general (keepZeros : Bool) (mark : Char) (count n : Nat) : List Char :=
  let count := max count 1
  let (digits, power) := significant count n
  let trimmed (fraction : List Char) : List Char := if keepZeros then fraction else dropZeros fraction
  if power < count then withPoint keepZeros (digits.take (power + 1)) (trimmed (digits.drop (power + 1)))
  else withPoint keepZeros (digits.take 1) (trimmed (digits.drop 1)) ++ mark :: '+' :: decimalPadded 2 power

/-- The digits of a conversion for numbers with a point. -/
def FieldSpec.pointed? (spec : FieldSpec) (n : Nat) : Option (List Char) :=
  let places := spec.precision.getD 6
  if spec.conversion = 'f' ∨ spec.conversion = 'F' then
    some (withPoint spec.alternate (decimal n) (List.replicate places '0'))
  else if spec.conversion = 'e' then some (withPower spec.alternate 'e' places n)
  else if spec.conversion = 'E' then some (withPower spec.alternate 'E' places n)
  else if spec.conversion = 'g' then some (general spec.alternate 'e' places n)
  else if spec.conversion = 'G' then some (general spec.alternate 'E' places n)
  else none

/-! ### All fields -/

/-- The text of a conversion that suits every field. -/
def FieldSpec.shown? (spec : FieldSpec) (value : FieldValue) : Option (List Char) :=
  let plain :=
    match value with
    | .text s | .object s => s
    | .number n => decimal n
  let quoted :=
    match value with
    | .text s => Text.quoted s
    | .object s => s
    | .number n => decimal n
  if spec.conversion = 's' then some plain
  else if spec.conversion = 'r' then some quoted
  else if spec.conversion = 'a' then some (asciiOnly quoted)
  else none

/-- The one character that a field holds or is the code of. -/
def FieldValue.character? : FieldValue → Option Char
  | text [c] => some c
  | text _ | object _ => none
  | number n => if n.isValidChar then some (Char.ofNat n) else none

/-- A number as a conversion for numbers writes it. -/
def FieldSpec.number? (spec : FieldSpec) (n : Nat) : Option (List Char) :=
  match baseOf? spec.conversion with
  | some (base, mark) => some (spec.whole base mark n)
  | none => (spec.pointed? n).map (spec.fill [])

/-- A field as its conversion writes it. The precision is the greatest number of characters of a text. -/
def FieldSpec.write? (spec : FieldSpec) (value : FieldValue) : Option (List Char) :=
  match spec.shown? value with
  | some s => some (padded spec.leftAligned spec.width (s.take (spec.precision.getD s.length)))
  | none =>
    if spec.conversion = 'c' then value.character?.map fun c => padded spec.leftAligned spec.width [c]
    else
      match value with
      | .text _ | .object _ => none
      | .number n => spec.number? n

example : FieldSpec.write? ⟨false, [], false, true, 5, some 1, 'f'⟩ (.number 30) = some "030.0".toList := by
  decide +kernel
example : FieldSpec.write? ⟨true, [], false, false, 8, none, 's'⟩ (.text "ERROR".toList) = some "ERROR   ".toList := by
  decide +kernel
example : FieldSpec.write? ⟨false, ['+'], false, false, 0, some 1, 'g'⟩ (.number 30) = some "+3e+01".toList := by
  decide +kernel

end LocaleLint.Logging
