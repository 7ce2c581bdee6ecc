/-!
# The Calendar

Days of the proleptic Gregorian calendar: years run through zero into the negative numbers, and
every year has the leap day by the same rule. A day is stepped to the one before and the one
after; nothing else is needed to move an instant between offsets from UTC.
-/

namespace TaggedMemos

/-- A day of the calendar. -/
structure Day where
  /-- The year. -/
  year : Int
  /-- The month, from 1. -/
  month : Nat
  /-- The day of the month, from 1. -/
  day : Nat
  deriving DecidableEq, Repr, Inhabited

/-- Whether a year has a leap day. -/
def isLeapYear (year : Int) : Bool :=
  year % 4 == 0 && (year % 100 != 0 || year % 400 == 0)

/-- The number of days of a month. -/
def daysInMonth (year : Int) (month : Nat) : Nat :=
  match month with
  | 2 => if isLeapYear year then 29 else 28
  | 4 | 6 | 9 | 11 => 30
  | _ => 31

namespace Day

/-- The first year that a day can have. -/
def firstYear : Int := -262143

/-- The last year that a day can have. -/
def lastYear : Int := 262142

/-- Whether a day exists, in a year that can be written. -/
def Valid (d : Day) : Prop :=
  firstYear ≤ d.year ∧ d.year ≤ lastYear ∧ 1 ≤ d.month ∧ d.month ≤ 12 ∧ 1 ≤ d.day ∧
    d.day ≤ daysInMonth d.year d.month

instance (d : Day) : Decidable d.Valid := by
  unfold Valid
  infer_instance

/-- The day after. -/
def next (d : Day) : Day :=
  if d.day < daysInMonth d.year d.month then { d with day := d.day + 1 }
  else if d.month < 12 then ⟨d.year, d.month + 1, 1⟩
  else ⟨d.year + 1, 1, 1⟩

/-- The day before. -/
def previous (d : Day) : Day :=
  if 1 < d.day then { d with day := d.day - 1 }
  else if 1 < d.month then ⟨d.year, d.month - 1, daysInMonth d.year (d.month - 1)⟩
  else ⟨d.year - 1, 12, 31⟩

end Day

end TaggedMemos
