import TaggedMemos.Time.Timestamp

/-!
# The Clock

A clock counts the seconds since the beginning of 1970. A count of days becomes a day of the
calendar by way of eras of 400 years, over which the calendar repeats. Within an era the year
begins in March, so that a leap day is the last day of its year.
-/

namespace TaggedMemos

namespace Day

/-- Days in 400 years. -/
def daysPerEra : Nat := 146097

/-- The days from the first of March of the year zero to the beginning of 1970. -/
def daysBeforeClock : Int := 719468

/-- The year of an era, counted from March, in which a day of the era lies. Of every four years
the last one has a leap day, of every hundred the last one has none, and the last of all has
one. -/
def yearOfEra (day : Nat) : Nat :=
  (day - day / 1460 + day / 36524 - day / 146096) / 365

/-- The days of an era before one of its years. -/
def daysBeforeYear (year : Nat) : Nat :=
  365 * year + year / 4 - year / 100

/-- The day that is a number of days after the first of January 1970. -/
def ofClockDays (days : Int) : Day :=
  let shifted := days + daysBeforeClock
  let dayOfEra := (shifted % daysPerEra).toNat
  let year := yearOfEra dayOfEra
  let dayOfYear := dayOfEra - daysBeforeYear year
  -- Months count from March; five of them have 153 days.
  let month := (5 * dayOfYear + 2) / 153
  let day := dayOfYear - (153 * month + 2) / 5 + 1
  let start := shifted / daysPerEra * 400 + year
  if month < 10 then ⟨start, month + 3, day⟩ else ⟨start + 1, month - 9, day⟩

end Day

/-- The instant at which a clock shows a number of nanoseconds. -/
def Timestamp.ofClock (nanos : Int) : Timestamp :=
  let seconds := nanos / nanosPerSecond
  { date := Day.ofClockDays (seconds / secondsPerDay)
    second := (seconds % secondsPerDay).toNat
    nano := (nanos % nanosPerSecond).toNat }

end TaggedMemos
