import LocaleLint.Text.Digit

/-! # Dates and times of day

Dates of the years 1 to 9999 in the Gregorian calendar, and moments of such a day with an optional
offset from universal time. An offset is a whole number of minutes short of a day either way. -/

namespace LocaleLint

open Text

def isLeapYear (year : Nat) : Bool :=
  year % 4 == 0 && (year % 100 != 0 || year % 400 == 0)

/-- The number of days of a month; none for what is no month. -/
def daysInMonth (year month : Nat) : Nat :=
  match month with
  | 2 => if isLeapYear year then 29 else 28
  | 4 | 6 | 9 | 11 => 30
  | 1 | 3 | 5 | 7 | 8 | 10 | 12 => 31
  | _ => 0

structure Date where
  year : Nat
  month : Nat
  day : Nat
  deriving DecidableEq, Repr, Inhabited

namespace Date

/-- Whether a date names a day that exists. -/
def Exists (d : Date) : Prop :=
  1 ≤ d.year ∧ d.year ≤ 9999 ∧ 1 ≤ d.day ∧ d.day ≤ daysInMonth d.year d.month

instance (d : Date) : Decidable d.Exists := inferInstanceAs (Decidable (_ ∧ _))

/-- The number of days from the start of year 1 to a date. -/
def ordinal (d : Date) : Nat :=
  let years := d.year - 1
  let months := (List.range' 1 (d.month - 1)).map (daysInMonth d.year)
  365 * years + years / 4 - years / 100 + years / 400 + months.foldl Nat.add 0 + d.day

/-- Year, month and day with hyphens: `2001-12-14`. -/
def iso (d : Date) : List Char :=
  decimalPadded 4 d.year ++ '-' :: decimalPadded 2 d.month ++ '-' :: decimalPadded 2 d.day

end Date

/-- A moment of a day; `offset` counts the minutes that its clock is ahead of universal time. -/
structure Moment where
  date : Date
  hour : Nat
  minute : Nat
  second : Nat
  microsecond : Nat
  offset : Option Int
  deriving DecidableEq, Repr, Inhabited

namespace Moment

/-- Whether a moment is one of its day and its offset is short of a day. -/
def Exists (t : Moment) : Prop :=
  t.date.Exists ∧ t.hour < 24 ∧ t.minute < 60 ∧ t.second < 60 ∧ t.microsecond < 1000000 ∧
    ∀ o ∈ t.offset, o.natAbs < 1440

instance (t : Moment) : Decidable t.Exists := inferInstanceAs (Decidable (_ ∧ _))

/-- The microseconds from the start of year 1 by the moment's own clock. -/
def clockTime (t : Moment) : Int :=
  ((((t.date.ordinal * 24 + t.hour) * 60 + t.minute) * 60 + t.second) * 1000000 + t.microsecond : Nat)

/-- Whether two moments are the same instant. One without an offset is never the same as one with an
    offset. -/
def sameInstant (t u : Moment) : Bool :=
  match t.offset, u.offset with
  | none, none => t.clockTime == u.clockTime
  | some o, some p => t.clockTime - o * 60000000 == u.clockTime - p * 60000000
  | _, _ => false

/-- Hours and minutes of an offset with a sign: `+02:00`. -/
def isoOffset (o : Int) : List Char :=
  (if o < 0 then '-' else '+') :: decimalPadded 2 (o.natAbs / 60) ++ ':' :: decimalPadded 2 (o.natAbs % 60)

/-- Date and time with a `T` between them, microseconds only when there are any, and the offset. -/
def iso (t : Moment) : List Char :=
  t.date.iso ++ 'T' :: decimalPadded 2 t.hour ++ ':' :: decimalPadded 2 t.minute ++ ':' ::
    decimalPadded 2 t.second ++
    (if t.microsecond = 0 then [] else '.' :: decimalPadded 6 t.microsecond) ++
    (t.offset.map isoOffset).getD []

example : iso ⟨⟨2001, 12, 14⟩, 21, 59, 43, 100000, some (-30)⟩ = "2001-12-14T21:59:43.100000-00:30".toList := by
  decide +kernel

end Moment

end LocaleLint
