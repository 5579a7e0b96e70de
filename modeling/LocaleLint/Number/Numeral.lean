import LocaleLint.Number.Binary64
import LocaleLint.Text.Blank
import LocaleLint.Text.Digit

/-! # Numerals

Reading a number from the whole of a text: margins are dropped, a sign may come first, and the decimal
digits of every script count. Integers of decimal notation are limited in length both ways, those of a
power-of-two base are not. Numbers that may have a point may also have single underscores between two
digits. -/

namespace LocaleLint.Numeral

open Text

/-- The greatest number of decimal digits of an integer that is read or written. -/
def greatestLength : Nat := 4300

/-- A sign at the start of a text, `true` for minus, and the rest. -/
def splitSign : List Char → Bool × List Char
  | '-' :: rest => (true, rest)
  | '+' :: rest => (false, rest)
  | s => (false, s)

/-- The digits of a text that holds digits of a base only, and at least one. -/
def digitsOf? (base : Nat) (s : List Char) : Option (List Nat) :=
  if s.isEmpty then none
  else s.mapM fun c => ((digit? c).or (hexDigit? c)).filter (· < base)

/-- The letter that may stand after a zero at the start of a numeral of a base. -/
def baseMark? (base : Nat) : Option Char :=
  if base = 2 then some 'b' else if base = 8 then some 'o' else if base = 16 then some 'x' else none

/-- A numeral without the zero and the letter that name its base. -/
def dropBaseMark (base : Nat) (s : List Char) : List Char :=
  match s with
  | zero :: mark :: rest => if digit? zero = some 0 ∧ some mark.toLower = baseMark? base then rest else s
  | _ => s

/-- The integer that a text writes in a base. -/
def integer? (base : Nat) (s : List Char) : Option Int :=
  let (negative, magnitude) := splitSign (trim isNumeralMargin s)
  match digitsOf? base (dropBaseMark base magnitude) with
  | none => none
  | some digits =>
    if base = 10 ∧ digits.length > greatestLength then none
    else
      let n : Int := ofDigits base digits
      some (if negative then -n else n)

/-- The decimal text of an integer, if it is not too long. -/
def ofInt? (n : Int) : Option (List Char) :=
  let digits := decimal n.natAbs
  if digits.length > greatestLength then none
  else some (if n < 0 then '-' :: digits else digits)

/-- What a text means as a number of 64 bits. -/
inductive Reading where
  | number (x : Binary64)
  | notANumber
  deriving DecidableEq, Repr

/-- A power of ten: an exponent mark, a sign and digits, or nothing. -/
def power? (s : List Char) : Option Int :=
  match s with
  | [] => some 0
  | mark :: rest =>
    if mark = 'e' ∨ mark = 'E' then
      let (negative, digits) := splitSign rest
      (digitsOf? 10 digits).map fun ds => if negative then -(ofDigits 10 ds : Int) else ofDigits 10 ds
    else none

def isDigit (c : Char) : Bool := (digit? c).isSome

/-- A text without its underscores, if each of them stands between two digits. `afterDigit` tells whether
    the text comes right after one. -/
def dropUnderscores? (afterDigit : Bool) : List Char → Option (List Char)
  | [] => some []
  | '_' :: c :: rest =>
    if afterDigit && isDigit c then (dropUnderscores? true rest).map (c :: ·) else none
  | c :: rest => if c = '_' then none else (dropUnderscores? (isDigit c) rest).map (c :: ·)

/-- The number of 64 bits that a text without underscores writes: digits with or without a point and a
    power of ten, or the name of an infinity or of what is not a number in letters of either case. -/
def plainBinary64? (s : List Char) : Option Reading :=
  let (negative, magnitude) := splitSign s
  let name := lower magnitude
  if name = "inf".toList ∨ name = "infinity".toList then some (.number (.infinite negative))
  else if name = "nan".toList then some .notANumber
  else
    let whole := magnitude.takeWhile isDigit
    let rest := magnitude.dropWhile isDigit
    let (fraction, rest) :=
      match rest with
      | '.' :: rest => (rest.takeWhile isDigit, rest.dropWhile isDigit)
      | _ => ([], rest)
    match digitsOf? 10 (whole ++ fraction), power? rest with
    | some digits, some power =>
      some (.number (.ofDecimal negative (ofDigits 10 digits) (power - fraction.length)))
    | _, _ => none

/-- The number of 64 bits that a text writes. -/
def binary64? (s : List Char) : Option Reading := (dropUnderscores? false (trim isNumeralMargin s)).bind plainBinary64?

example : binary64? "1_0.5".toList = binary64? "10.5".toList ∧ binary64? "1__0".toList = none := by decide +kernel
example : integer? 8 "0o17".toList = some 15 ∧ integer? 10 " -٣\n".toList = some (-3) ∧ integer? 10 [] = none := by
  decide +kernel

end LocaleLint.Numeral
