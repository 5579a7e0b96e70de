import LocaleLint.Logging.Field
import LocaleLint.Text.Search
import LocaleLint.Text.Word

/-! # Templates of lines

A template is a text with fields: a percent sign, the name of a field in parentheses, flags, a width, a
precision and a conversion. Two percent signs are one. A template is accepted if one field in it is well
formed, and it can be filled in only if all of them are. -/

namespace LocaleLint.Logging

open Text

def isFlag (c : Char) : Bool := c == '-' || c == '+' || c == ' ' || c == '#' || c == '0'

/-! ### Accepting a template -/

/-- What follows an amount at the start of a text: a star or digits of any script. -/
def afterAmount : List Char → List Char
  | '*' :: rest => rest
  | s => s.dropWhile fun c => (digit? c).isSome

/-- What follows a precision at the start of a text. A point without an amount is none. -/
def afterPrecision : List Char → List Char
  | '.' :: rest => if (afterAmount rest).length < rest.length then afterAmount rest else '.' :: rest
  | s => s

/-- Whether a character names a conversion; letters do in both cases, and so do the dotted and the
    dotless `i` and the long `s`. -/
def isConversion (c : Char) : Bool :=
  "diouxefgcrsa%".toList.contains c.toLower || c == 'İ' || c == 'ı' || c == 'ſ'

/-- Whether a well-formed field starts here. -/
def fieldStarts : List Char → Bool
  | '%' :: '(' :: rest =>
    match rest.dropWhile isWord with
    | ')' :: spec =>
      !(rest.takeWhile isWord).isEmpty &&
        (afterPrecision (afterAmount (spec.dropWhile isFlag))).head?.any isConversion
    | _ => false
  | _ => false

/-- Whether a template is accepted: it holds a well-formed field. -/
def isTemplate (s : List Char) : Bool := searches fieldStarts s

/-! ### Filling in a template -/

/-- One part of a template: a character, or a field with its name. -/
inductive TemplatePart where
  | character (c : Char)
  | field (name : List Char) (spec : FieldSpec)
  deriving DecidableEq, Repr

def greatestAmount : Nat := 2147483647

/-- An amount in decimal digits at the start of a text, none at all being zero, and what follows it. -/
def amount (s : List Char) : Nat × List Char :=
  (ofDigits 10 ((s.takeWhile Char.isDigit).map fun c => c.toNat - '0'.toNat), s.dropWhile Char.isDigit)

/-- What follows the letter that may stand before a conversion. -/
def dropSize : List Char → List Char
  | c :: rest => if c = 'h' ∨ c = 'l' ∨ c = 'L' then rest else c :: rest
  | [] => []

/-- A precision at the start of a text, and what follows it. -/
def precisionAt (s : List Char) : Option Nat × List Char :=
  match s with
  | '.' :: rest => (some (amount rest).1, (amount rest).2)
  | _ => (none, s)

/-- The way a field is written, read from what follows its name, and what follows that. -/
def specAt? (s : List Char) : Option (FieldSpec × List Char) :=
  let flags := s.takeWhile isFlag
  let (width, s) := amount (s.dropWhile isFlag)
  let (precision, s) := precisionAt s
  let sign := if flags.contains '+' then ['+'] else if flags.contains ' ' then [' '] else []
  if width > greatestAmount ∨ precision.getD 0 > greatestAmount then none
  else
    match dropSize s with
    | [] => none
    | c :: rest => some (⟨flags.contains '-', sign, flags.contains '#', flags.contains '0', width, precision, c⟩, rest)

/-- The name of a field, which ends where the parentheses that are open are closed, and what follows. -/
def nameAt? (depth : Nat) : List Char → Option (List Char × List Char)
  | [] => none
  | c :: rest =>
    if c = ')' then
      match depth with
      | 0 => some ([], rest)
      | depth + 1 => (nameAt? depth rest).map fun found => (c :: found.1, found.2)
    else (nameAt? (if c = '(' then depth + 1 else depth) rest).map fun found => (c :: found.1, found.2)

/-- The part that a percent sign starts, read from what follows the sign, and what follows the part. A
    second percent sign makes it a percent sign. -/
def partAt? (s : List Char) : Option (TemplatePart × List Char) :=
  match s with
  | '%' :: rest => some (.character '%', rest)
  | '(' :: rest =>
    (nameAt? 0 rest).bind fun (name, rest) => (specAt? rest).map fun (spec, rest) => (.field name spec, rest)
  | _ => none

/-- The parts of a template. The fuel is at least the length of the text. -/
def partsOf? : Nat → List Char → Option (List TemplatePart)
  | _, [] => some []
  | 0, _ => none
  | fuel + 1, c :: rest =>
    if c = '%' then (partAt? rest).bind fun (part, rest) => (partsOf? fuel rest).map (part :: ·)
    else (partsOf? fuel rest).map (.character c :: ·)

/-- The text of a part, where the fields have values by name. -/
def TemplatePart.write? (value? : List Char → Option FieldValue) : TemplatePart → Option (List Char)
  | character c => some [c]
  | field name spec => (value? name).bind spec.write?

/-- A template filled in with the values of its fields; nothing if that cannot be done. -/
def fillIn? (template : List Char) (value? : List Char → Option FieldValue) : Option (List Char) :=
  (partsOf? template.length template).bind fun parts =>
    (parts.mapM (TemplatePart.write? value?)).map List.flatten

example : isTemplate "%(message)s %".toList ∧ ¬ isTemplate "%(a b)s %%".toList ∧ isTemplate "%(é)+٣.*D".toList := by
  decide +kernel
example : fillIn? "%(n)04d%%".toList (fun _ => some (.number 30)) = some "0030%".toList := by decide +kernel
example : fillIn? "%(n)d".toList (fun _ => some (.text [])) = none := by decide +kernel

end LocaleLint.Logging
