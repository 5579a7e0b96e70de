import LocaleLint.Text.Digit

/-! # Types of scalars

A tag names the type of a node. A scalar without a tag has the type that its text has the form of:
nothing, a truth value, a number of one of many notations, a timestamp, the merge mark `<<` or the value
mark `=`, and else a text. -/

namespace LocaleLint.Yaml

inductive Tag where
  | null
  | bool
  | int
  | float
  | binary
  | timestamp
  | orderedMapping
  | pairs
  | set
  | text
  | sequence
  | mapping
  | merge
  | value
  | unknown
  deriving DecidableEq, Repr, Inhabited

/-- The start of the names of the known types. -/
def Tag.family : String := "tag:yaml.org,2002:"

/-- The known types by the end of their names. -/
def Tag.known : List (String × Tag) :=
  [("null", .null), ("bool", .bool), ("int", .int), ("float", .float), ("binary", .binary),
    ("timestamp", .timestamp), ("omap", .orderedMapping), ("pairs", .pairs), ("set", .set), ("str", .text),
    ("seq", .sequence), ("map", .mapping), ("merge", .merge), ("value", .value)]

/-- The type of a full name. -/
def Tag.ofName (name : String) : Tag :=
  ((Tag.known.find? fun entry => Tag.family ++ entry.1 == name).map (·.2)).getD .unknown

/-! ### Forms of plain text -/

/-- A text without a sign at its start. -/
def dropSign (s : List Char) : List Char :=
  match s with
  | '+' :: rest => rest
  | '-' :: rest => rest
  | _ => s

/-- Whether a text has characters of a class only, and at least one. -/
def isRunOf (p : Char → Bool) (s : List Char) : Bool := !s.isEmpty && s.all p

def isDigitOrBar (c : Char) : Bool := c.isDigit || c == '_'

/-- Whether a text is digits and underscores, a digit first. -/
def isGroupedDigits (s : List Char) : Bool := (s.head?.map Char.isDigit).getD false && s.all isDigitOrBar

/-- Whether a text is a number below sixty of one or two digits. -/
def isSixtieth (s : List Char) : Bool :=
  match s with
  | [c] => c.isDigit
  | [a, b] => '0' ≤ a && a ≤ '5' && b.isDigit
  | _ => false

/-- The parts of a text between the occurrences of a character; there is always one. -/
def splitAt (mark : Char) : List Char → List (List Char)
  | [] => [[]]
  | c :: rest =>
    if c == mark then [] :: splitAt mark rest
    else
      match splitAt mark rest with
      | [] => [[c]]
      | part :: parts => (c :: part) :: parts

/-- Whether a text is a power of ten with its mark and a sign, or empty. -/
def isSignedPower (s : List Char) : Bool :=
  match s with
  | [] => true
  | mark :: sign :: digits =>
    (mark == 'e' || mark == 'E') && (sign == '+' || sign == '-') && isRunOf Char.isDigit digits
  | _ => false

/-- Whether a text has the form of a number with a point. -/
def isFloatForm (s : List Char) : Bool :=
  let magnitude := dropSign s
  let whole := magnitude.takeWhile (· != '.')
  match magnitude.dropWhile (· != '.') with
  | [] => false
  | _ :: fraction =>
    let power := fraction.dropWhile isDigitOrBar
    if whole.isEmpty then
      ["inf", "Inf", "INF"].any (·.toList == fraction) ||
        (magnitude == s && (["nan", "NaN", "NAN"].any (·.toList == fraction) ||
          (isGroupedDigits (fraction.takeWhile isDigitOrBar) && isSignedPower power)))
    else
      match splitAt ':' whole with
      | [] => false
      | [digits] => isGroupedDigits digits && isSignedPower power
      | digits :: parts => isGroupedDigits digits && parts.all isSixtieth && power.isEmpty

/-- Whether a text has the form of an integer of base two, eight, ten, sixteen or sixty. -/
def isIntForm (s : List Char) : Bool :=
  match dropSign s with
  | ['0'] => true
  | '0' :: 'b' :: digits => isRunOf (fun c => c == '0' || c == '1' || c == '_') digits
  | '0' :: 'x' :: digits => isRunOf (fun c => (Text.hexDigit? c).isSome || c == '_') digits
  | '0' :: digits => isRunOf (fun c => ('0' ≤ c && c ≤ '7') || c == '_') digits
  | magnitude =>
    match splitAt ':' magnitude with
    | [] => false
    | digits :: parts => isGroupedDigits digits && parts.all isSixtieth

/-- The end of a timestamp's text: nothing, the mark of universal time, or an offset with its sign
    (`true` for behind), hours and minutes. -/
inductive ZoneForm where
  | absent
  | universal
  | offset (behind : Bool) (hours minutes : List Char)

/-- The parts of a timestamp's text. -/
structure TimestampForm where
  year : List Char
  month : List Char
  day : List Char
  /-- Hour, minute and second with the digits after the point. -/
  clock : Option (List Char × List Char × List Char × List Char)
  zone : ZoneForm

namespace TimestampForm

/-- Between `least` and `most` digits at the start of a text, and the rest. -/
def digits? (least most : Nat) (s : List Char) : Option (List Char × List Char) :=
  let run := (s.take most).takeWhile Char.isDigit
  if run.length < least then none else some (run, s.drop run.length)

/-- A text without the character that it starts with. -/
def mark? (c : Char) (s : List Char) : Option (List Char) :=
  match s with
  | d :: rest => if d == c then some rest else none
  | [] => none

def isGap (c : Char) : Bool := c == ' ' || c == '\t'

/-- The offset at the end of a timestamp. -/
def zone? (s : List Char) : Option ZoneForm :=
  match s with
  | [] => some .absent
  | _ =>
    match s.dropWhile isGap with
    | ['Z'] => some .universal
    | sign :: rest =>
      if sign == '+' || sign == '-' then
        match digits? 1 2 rest with
        | some (hours, []) => some (.offset (sign == '-') hours [])
        | some (hours, ':' :: minutes) =>
          if minutes.length = 2 ∧ minutes.all Char.isDigit then some (.offset (sign == '-') hours minutes)
          else none
        | _ => none
      else none
    | [] => none

/-- The time of day and what follows it. -/
def clock? (s : List Char) : Option ((List Char × List Char × List Char × List Char) × ZoneForm) := do
  let (hour, s) ← digits? 1 2 s
  let (minute, s) ← digits? 2 2 (← mark? ':' s)
  let (second, s) ← digits? 2 2 (← mark? ':' s)
  let (fraction, s) :=
    match s with
    | '.' :: rest => (rest.takeWhile Char.isDigit, rest.dropWhile Char.isDigit)
    | _ => ([], s)
  return ((hour, minute, second, fraction), ← zone? s)

/-- The parts of a timestamp, if a text is one: a date, or a date and a time of day. -/
def ofText? (s : List Char) : Option TimestampForm := do
  let (year, s) ← digits? 4 4 s
  let (month, s) ← digits? 1 2 (← mark? '-' s)
  let (day, s) ← digits? 1 2 (← mark? '-' s)
  match s with
  | [] => return ⟨year, month, day, none, .absent⟩
  | c :: rest =>
    let (clock, zone) ←
      if c == 'T' || c == 't' then clock? rest
      else if isGap c then clock? (rest.dropWhile isGap)
      else none
    return ⟨year, month, day, some clock, zone⟩

end TimestampForm

/-- Whether a text has the form of a timestamp; a date alone has two digits for month and day. -/
def isTimestampForm (s : List Char) : Bool :=
  match TimestampForm.ofText? s with
  | some t => t.clock.isSome || (t.month.length == 2 && t.day.length == 2)
  | none => false

/-- The words for truth values in the three ways to write each. -/
def truthWords : List String :=
  ["yes", "no", "true", "false", "on", "off"].flatMap fun word => [word, word.capitalize, word.toUpper]

/-- A text without one line feed at its end. -/
def dropLineFeed (s : List Char) : List Char := if s.getLast? = some '\n' then s.dropLast else s

/-- The type of a scalar without a tag. -/
def Tag.ofPlain (s : List Char) : Tag :=
  let body := dropLineFeed s
  if s.isEmpty then .null
  else if body.isEmpty then .text
  else if truthWords.any (·.toList == body) then .bool
  else if isFloatForm body then .float
  else if isIntForm body then .int
  else if body == ['<', '<'] then .merge
  else if ["~", "null", "Null", "NULL"].any (·.toList == body) then .null
  else if isTimestampForm body then .timestamp
  else if body == ['='] then .value
  else if body == ['!'] || body == ['&'] || body == ['*'] then .unknown
  else .text

end LocaleLint.Yaml
