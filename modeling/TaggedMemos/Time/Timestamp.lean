import TaggedMemos.Text.Numeral
import TaggedMemos.Time.Calendar

/-!
# Timestamps

A timestamp is an instant in UTC with a resolution of one nanosecond. The second after 23:59:59,
or after any other full minute, can be a leap second; it is kept as the second before it with
more than a thousand million nanoseconds, so that the number of seconds in a day stays fixed.

A timestamp is written with the fewest groups of three fraction digits that lose nothing.
-/

namespace TaggedMemos

open Text

/-- An instant in UTC. -/
structure Timestamp where
  /-- The day. -/
  date : Day
  /-- The seconds since the day began. -/
  second : Nat
  /-- The nanoseconds since the second began, a leap second included. -/
  nano : Nat
  deriving DecidableEq, Repr, Inhabited

namespace Timestamp

/-- Nanoseconds in a second. -/
def nanosPerSecond : Nat := 1000000000

/-- Seconds in a day. -/
def secondsPerDay : Nat := 86400

/-- Whether an instant exists and is no leap second. -/
def Valid (t : Timestamp) : Prop :=
  t.date.Valid ∧ t.second < secondsPerDay ∧ t.nano < nanosPerSecond

instance (t : Timestamp) : Decidable t.Valid := by
  unfold Valid
  infer_instance

/-! ### Written form -/

/-- The decimal digits of a number, four at least. -/
def fourDigits (n : Nat) : List Char :=
  if n < 10000 then decimalDigits 4 n else (toString n).toList

/-- A year: four digits, and a sign in front of a year that needs more or is negative. -/
def yearText (year : Int) : List Char :=
  if year < 0 then '-' :: fourDigits year.natAbs
  else if 9999 < year then '+' :: fourDigits year.natAbs
  else fourDigits year.natAbs

/-- A day as year, month and day. -/
def dateText (d : Day) : List Char :=
  yearText d.year ++ '-' :: decimalDigits 2 d.month ++ '-' :: decimalDigits 2 d.day

/-- The hour and minute of a second of the day. -/
def minuteText (second : Nat) : List Char :=
  decimalDigits 2 (second / 3600) ++ ':' :: decimalDigits 2 (second / 60 % 60)

/-- A fraction of a second in none, three, six or nine digits. -/
def fractionText (nano : Nat) : List Char :=
  if nano = 0 then []
  else if nano % 1000000 = 0 then '.' :: decimalDigits 3 (nano / 1000000)
  else if nano % 1000 = 0 then '.' :: decimalDigits 6 (nano / 1000)
  else '.' :: decimalDigits 9 nano

/-- The characters of a timestamp. -/
def toChars (t : Timestamp) : List Char :=
  dateText t.date ++ 'T' :: minuteText t.second ++
    ':' :: decimalDigits 2 (t.second % 60 + t.nano / nanosPerSecond) ++
    fractionText (t.nano % nanosPerSecond) ++ ['Z']

/-- The written form: `2024-01-02T03:04:05Z`, with a fraction of a second where there is one. -/
def toText (t : Timestamp) : String :=
  String.ofList t.toChars

/-- The form shown to a person: `2024-01-02 03:04`. -/
def toMinute (t : Timestamp) : String :=
  String.ofList (dateText t.date ++ ' ' :: minuteText t.second)

/-! ### Offsets -/

/-- The instant at which clocks `offset` seconds ahead of UTC show a given time. -/
def ofLocal (shown : Timestamp) (offset : Int) : Timestamp :=
  let second := (shown.second : Int) - offset
  if second < 0 then
    { shown with date := shown.date.previous, second := (second + secondsPerDay).toNat }
  else if (secondsPerDay : Int) ≤ second then
    { shown with date := shown.date.next, second := (second - secondsPerDay).toNat }
  else { shown with second := second.toNat }

end Timestamp

end TaggedMemos
