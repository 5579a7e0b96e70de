import LocaleLint.Number.Numeral
import LocaleLint.Value.Basic
import LocaleLint.Yaml.Error
import LocaleLint.Yaml.Tag

/-! # Typed scalars

The value of a scalar's text under the type of its tag. The tag may have been written out, so the text
need not have the form that the type asks for. -/

namespace LocaleLint.Yaml

open Text

/-- The integer that a text writes in a base. -/
def integerOf (base : Nat) (s : List Char) : Except LoadError Int :=
  match Numeral.integer? base s with
  | some n => .ok n
  | none => .error .badNumeral

/-- The number that parts write in base sixty, the most significant first. -/
def sixties (parts : List Int) : Int := parts.foldl (fun n part => n * 60 + part) 0

/-- The value of an integer's text: underscores are dropped, and what follows the sign tells the base by
    its first characters. -/
def intValue (s : List Char) : Except LoadError Int := do
  let s := s.filter (· != '_')
  if s.isEmpty then throw .emptyNumeral
  let negative := s.head? == some '-'
  let n ←
    match dropSign s with
    | [] => throw .emptyNumeral
    | ['0'] => pure 0
    | '0' :: 'b' :: digits => integerOf 2 digits
    | '0' :: 'x' :: digits => integerOf 16 digits
    | '0' :: digits => integerOf 8 ('0' :: digits)
    | magnitude =>
      if magnitude.contains ':' then (splitAt ':' magnitude).mapM (integerOf 10) |>.map sixties
      else integerOf 10 magnitude
  return if negative then -n else n

/-- The number that a text writes; `none` is no number. -/
def binary64Of (s : List Char) : Except LoadError (Option Binary64) :=
  match Numeral.binary64? s with
  | some (.number x) => .ok (some x)
  | some .notANumber => .ok none
  | none => .error .badNumeral

/-- The sum of parts times powers of sixty, the least significant part first, from a sum so far and the
    next power on. -/
def sumSixties (sum : Option Binary64) (base : Nat) : List (Option Binary64) → Except LoadError (Option Binary64)
  | [] => .ok sum
  | part :: parts =>
    match Binary64.ofNat? base with
    | none => .error .numberTooLarge
    | some power =>
      let term := part.bind (·.mul power)
      sumSixties (sum.bind fun x => term.bind x.add) (base * 60) parts

/-- The value of a number's text; `none` is no number. -/
def floatValue (s : List Char) : Except LoadError (Option Binary64) := do
  let s := lower (s.filter (· != '_'))
  if s.isEmpty then throw .emptyNumeral
  let negative := s.head? == some '-'
  let magnitude := dropSign s
  let x ←
    if magnitude == ".inf".toList then pure (some (.infinite false))
    else if magnitude == ".nan".toList then pure none
    else if magnitude.contains ':' then do
      let parts ← (splitAt ':' magnitude).mapM binary64Of
      sumSixties (some (.zero false)) 1 parts.reverse
    else binary64Of magnitude
  return if negative then x.map Binary64.neg else x

/-- Whether a number's text is the mark of what is not a number, which is one and the same everywhere. -/
def isNanMark (s : List Char) : Bool := dropSign (lower (s.filter (· != '_'))) == ".nan".toList

/-- The number that ASCII digits write; none write zero. -/
def naturalOf (digits : List Char) : Nat := ofDigits 10 (digits.map fun c => c.toNat - '0'.toNat)

/-- The offset in minutes at the end of a timestamp. -/
def ZoneForm.minutes? : ZoneForm → Option Int
  | absent => none
  | universal => some 0
  | offset behind hours minutes =>
    let n : Int := naturalOf hours * 60 + naturalOf minutes
    some (if behind then -n else n)

/-- The value of a timestamp's text: a date, or a moment with microseconds of six digits. -/
def timestampValue (s : List Char) : Except LoadError Value :=
  match TimestampForm.ofText? (dropLineFeed s) with
  | none => .error .badTimestamp
  | some form =>
    let date : Date := ⟨naturalOf form.year, naturalOf form.month, naturalOf form.day⟩
    match form.clock with
    | none => if date.Exists then .ok (.date date) else .error .impossibleTimestamp
    | some (hour, minute, second, fraction) =>
      let digits := fraction.take 6
      let moment : Moment :=
        { date, hour := naturalOf hour, minute := naturalOf minute, second := naturalOf second
          microsecond := naturalOf (digits ++ List.replicate (6 - digits.length) '0')
          offset := form.zone.minutes? }
      if moment.Exists then .ok (.moment moment) else .error .impossibleTimestamp

/-! ### Binary data -/

/-- The six bits of a character of base 64. -/
def sextet? (c : Char) : Option Nat :=
  if 'A' ≤ c ∧ c ≤ 'Z' then some (c.toNat - 'A'.toNat)
  else if 'a' ≤ c ∧ c ≤ 'z' then some (c.toNat - 'a'.toNat + 26)
  else if '0' ≤ c ∧ c ≤ '9' then some (c.toNat - '0'.toNat + 52)
  else if c = '+' then some 62
  else if c = '/' then some 63
  else none

/-- The bytes of base 64 text. `held` counts the characters of the group of four so far, `left` has the
    bits that no byte holds yet, and `pads` counts the padding since the last character. Padding that
    completes a group ends the data; other characters are skipped. -/
def base64Bytes (held left pads : Nat) : List Char → Option (List UInt8)
  | [] => if held = 0 then some [] else none
  | c :: rest =>
    if c = '=' then
      if held ≥ 2 then
        if held + pads + 1 ≥ 4 then some [] else base64Bytes held left (pads + 1) rest
      else base64Bytes held left pads rest
    else
      match sextet? c with
      | none => base64Bytes held left pads rest
      | some bits =>
        match held with
        | 0 => base64Bytes 1 bits 0 rest
        | 1 => (base64Bytes 2 (bits % 16) 0 rest).map (UInt8.ofNat (left * 4 + bits / 16) :: ·)
        | 2 => (base64Bytes 3 (bits % 4) 0 rest).map (UInt8.ofNat (left * 16 + bits / 4) :: ·)
        | _ => (base64Bytes 0 0 0 rest).map (UInt8.ofNat (left * 64 + bits) :: ·)

/-- The bytes of a text in base 64, which must be ASCII. -/
def binaryValue (s : List Char) : Except LoadError (List UInt8) :=
  if s.all (·.toNat < 0x80) then
    match base64Bytes 0 0 0 s with
    | some bytes => .ok bytes
    | none => .error .malformed
  else .error .malformed

/-! ### All types -/

def truthValue? (s : List Char) : Option Bool :=
  let word := lower s
  if ["yes", "true", "on"].any (·.toList == word) then some true
  else if ["no", "false", "off"].any (·.toList == word) then some false
  else none

/-- The value of a scalar's text under the type of its tag, for the scalar with a number of its own in
    the document. -/
def scalarValue (tag : Tag) (self : Nat) (s : List Char) : Except LoadError Value :=
  match tag with
  | .null => .ok .null
  | .bool =>
    match truthValue? s with
    | some b => .ok (.bool b)
    | none => .error .badTruthValue
  | .int => (intValue s).map .int
  | .float =>
    (floatValue s).map fun
      | some x => .float x
      | none => .nan (some (if isNanMark s then 0 else self + 1))
  | .binary => (binaryValue s).map .bytes
  | .timestamp => timestampValue s
  | .text => .ok (.text (String.ofList s))
  | _ => .error .malformed

end LocaleLint.Yaml
