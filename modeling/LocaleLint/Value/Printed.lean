import LocaleLint.Number.Numeral
import LocaleLint.Number.Style
import LocaleLint.Text.Quoted
import LocaleLint.Value.Basic

/-! # The printed form of a value

A value inside a mapping, a tuple or a set is shown by its printed form: texts are quoted, dates are
spelled out with the name of their type, and a container that is already being printed is shown by its
brackets with three dots between them. -/

namespace LocaleLint

open Text

/-- Why a value has no text. -/
inductive CoercionError where
  | tooLong
  /-- A container holds itself. -/
  | endless
  deriving DecidableEq, Repr

/-- Texts with a comma and a blank between them. -/
def commaSeparated : List (List Char) → List Char
  | [] => []
  | [s] => s
  | s :: rest => s ++ ',' :: ' ' :: commaSeparated rest

/-- A type's name and the numbers that it is built from. -/
def printedCall (name : String) (arguments : List (List Char)) : List Char :=
  name.toList ++ '(' :: commaSeparated arguments ++ [')']

/-- A date by year, month and day. -/
def Date.printed (d : Date) : List Char :=
  printedCall "datetime.date" [decimal d.year, decimal d.month, decimal d.day]

/-- An offset from universal time; one behind it is counted from the day before. -/
def Moment.printedOffset (offset : Int) : List Char :=
  if offset = 0 then "datetime.timezone.utc".toList
  else
    let seconds (n : Int) : List Char := "seconds=".toList ++ decimal n.toNat
    let delta := if offset < 0 then ["days=-1".toList, seconds (86400 + offset * 60)] else [seconds (offset * 60)]
    printedCall "datetime.timezone" [printedCall "datetime.timedelta" delta]

/-- A moment by its numbers; seconds and microseconds that are zero are left out from the end. -/
def Moment.printed (t : Moment) : List Char :=
  let clock := [t.date.year, t.date.month, t.date.day, t.hour, t.minute]
  let fine :=
    if t.microsecond ≠ 0 then [t.second, t.microsecond]
    else if t.second ≠ 0 then [t.second]
    else []
  let zone := t.offset.toList.map fun o => "tzinfo=".toList ++ printedOffset o
  printedCall "datetime.datetime" ((clock ++ fine).map decimal ++ zone)

/-- The brackets of a kind of container. -/
def Container.brackets : Container → List Char × List Char
  | list => (['['], [']'])
  | tuple => (['('], [')'])
  | set => (['\x7b'], ['\x7d'])
  | mapping => (['\x7b'], ['\x7d'])

/-- What stands for a container inside itself. -/
def Container.ellipsis : Container → List Char
  | set => "set(...)".toList
  | kind => kind.brackets.1 ++ "...".toList ++ kind.brackets.2

/-- Printed items between the brackets of their container. A tuple of one item ends in a comma, and an
    empty set has no bracket form. -/
def Container.enclose (kind : Container) (items : List (List Char)) : List Char :=
  match kind, items with
  | tuple, [item] => '(' :: item ++ ",)".toList
  | set, [] => "set()".toList
  | kind, items => kind.brackets.1 ++ commaSeparated items ++ kind.brackets.2

namespace Value

mutual

def printed : Value → Except CoercionError (List Char)
  | null => .ok "None".toList
  | bool b => .ok (if b then "True".toList else "False".toList)
  | int n =>
    match Numeral.ofInt? n with
    | some s => .ok s
    | none => .error .tooLong
  | float x => .ok (NumberStyle.standard.write x)
  | nan _ => .ok NumberStyle.standard.notANumber
  | text s => .ok (quoted s.toList)
  | bytes b => .ok (quotedBytes b)
  | date d => .ok d.printed
  | moment t => .ok t.printed
  | list items => (printedItems items).map Container.list.enclose
  | tuple items => (printedItems items).map Container.tuple.enclose
  | set items => (printedItems items).map Container.set.enclose
  | mapping entries => (printedEntries entries).map Container.mapping.enclose
  | again kind => .ok kind.ellipsis
  | endless => .error .endless

/-- The printed forms of items, from the first on. -/
def printedItems : List Value → Except CoercionError (List (List Char))
  | [] => .ok []
  | v :: rest =>
    match printed v with
    | .error e => .error e
    | .ok s => (printedItems rest).map (s :: ·)

/-- The printed forms of entries: key, colon, blank, value. -/
def printedEntries : List (Value × Value) → Except CoercionError (List (List Char))
  | [] => .ok []
  | (k, v) :: rest =>
    match printed k with
    | .error e => .error e
    | .ok s =>
      match printed v with
      | .error e => .error e
      | .ok t => (printedEntries rest).map ((s ++ ':' :: ' ' :: t) :: ·)

end

end Value

end LocaleLint
