import LocaleLint.Text.Digit

/-! # Time stamps

The format of a time stamp is a text with conversions: a percent sign, flags, a width, a modifier and a
letter. A percent sign, a line feed and a tab can be written by conversions of their own, and so can the
century and the zone, which is universal time. Log lines are to be the same whenever they are written, so
every other conversion stays as it is. -/

namespace LocaleLint.Logging.Stamp

open Text

/-- The time stamp of a line without a format for it. -/
def standard : List Char := "2000-01-01 00:00:00,000".toList

def isFlag (c : Char) : Bool := c == '_' || c == '-' || c == '0' || c == '^' || c == '#'

/-- What a conversion writes for its letter, and the text of the conversion for a letter that writes
    nothing of its own. -/
def written (c : Char) (conversion : List Char) : List Char :=
  match c with
  | '%' => ['%']
  | 'n' => ['\n']
  | 't' => ['\t']
  | 'C' => "20".toList
  | 'Z' => "UTC".toList
  | 'z' => "+0000".toList
  | _ => conversion

/-- A text made up to a width, by zeros if the last flag for that says so. -/
def widened (flags : List Char) (width : Nat) (s : List Char) : List Char :=
  let filler := if (flags.filter fun c => c == '_' || c == '-' || c == '0').getLast? = some '0' then '0' else ' '
  List.replicate (width - s.length) filler ++ s

/-- The modifier before a letter, and what follows it. -/
def splitModifier : List Char → List Char × List Char
  | 'E' :: rest => (['E'], rest)
  | 'O' :: rest => (['O'], rest)
  | s => ([], s)

/-- What a conversion writes, at most so many characters wide, and what follows it. The conversion is read
    from what comes after its percent sign. -/
def conversionAt (widest : Nat) (s : List Char) : List Char × List Char :=
  let flags := s.takeWhile isFlag
  let digits := (s.dropWhile isFlag).takeWhile Char.isDigit
  let (modifier, rest) := splitModifier ((s.dropWhile isFlag).dropWhile Char.isDigit)
  let width := min widest (ofDigits 10 (digits.map fun c => c.toNat - '0'.toNat))
  let conversion := '%' :: flags ++ digits ++ modifier
  match rest with
  | [] => (widened flags width conversion, [])
  | c :: rest => (widened flags width (written c (conversion ++ [c])), rest)

/-- The time stamp of a format. The fuel is at least the length of the format. -/
def writeFrom (widest : Nat) : Nat → List Char → List Char
  | _, [] => []
  | 0, _ => []
  | fuel + 1, c :: rest =>
    if c = '%' then
      let found := conversionAt widest rest
      found.1 ++ writeFrom widest fuel found.2
    else c :: writeFrom widest fuel rest

/-- The number of characters that a time stamp of a format of given length has to stay below: the first
    doubling of 1024 that is 256 for each character of the format. -/
def limit (length : Nat) : Nat :=
  (((List.range length).map fun k => 1024 * Nat.pow 2 k).find? (256 * length ≤ ·)).getD 1024

/-- The time stamp of a format. One that is too long is left out, and a format with a null character has
    none. -/
def write? (format : List Char) : Option (List Char) :=
  if format.contains '\x00' then none
  else
    let stamp := writeFrom (limit format.length) format.length format
    some (if stamp.length < limit format.length then stamp else [])

example : write? "100%%|%Q%5n".toList = some "100%|%Q    \n".toList := by decide +kernel

end LocaleLint.Logging.Stamp
