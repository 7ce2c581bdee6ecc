import TaggedMemos.Text.Blank
import TaggedMemos.Text.Substring
import TaggedMemos.Time.Timestamp

/-!
# Reading Timestamps

A timestamp is read from a date, one of `T`, `t` and a space, a time of day and an offset from
UTC. The reading is lenient about layout and strict about values:

* blank characters may stand before every number, separator and offset, and at the end;
* a number may have fewer digits than usual, and a year with a sign may have more;
* a fraction of a second has one digit or more, of which nine count;
* the offset is `Z`, or `UTC`, in any case of letters, or a sign, two digits of hours and two of
  minutes, with colons and blank characters between them allowed;
* the day has to exist, the second may be 60, and the offset is less than a day.

Every reader gives what it read together with the rest of the text.
-/

namespace TaggedMemos.Timestamp

open Text

/-! ### Numbers -/

/-- Decimal digits at the beginning of a text, `most` at most. -/
def takeDigits : Nat → List Char → List Nat × List Char
  | 0, cs => ([], cs)
  | _ + 1, [] => ([], [])
  | most + 1, c :: rest =>
    match decimalDigit? c with
    | some d =>
      let (ds, rest) := takeDigits most rest
      (d :: ds, rest)
    | none => ([], c :: rest)

/-- A number of one digit at least and `most` at most. -/
def number? (most : Nat) (cs : List Char) : Option (Nat × List Char) :=
  match takeDigits most cs with
  | ([], _) => none
  | (digits, rest) => some (ofDigits 10 digits, rest)

/-- A number of one or two digits after blank characters. -/
def smallNumber? (cs : List Char) : Option (Nat × List Char) :=
  number? 2 (trimStart cs)

/-- A year after blank characters: four digits at most, or a sign and any number of them. -/
def year? (cs : List Char) : Option (Int × List Char) :=
  match trimStart cs with
  | '-' :: rest => (number? rest.length rest).map fun (n, rest) => (-(n : Int), rest)
  | '+' :: rest => (number? rest.length rest).map fun (n, rest) => ((n : Int), rest)
  | cs => (number? 4 cs).map fun (n, rest) => ((n : Int), rest)

/-- What follows a separator, before which blank characters may stand. -/
def afterMark? (mark : Char) (cs : List Char) : Option (List Char) :=
  stripPrefix? [mark] (trimStart cs)

/-! ### Parts of a timestamp -/

/-- A day, which need not exist. -/
def date? (cs : List Char) : Option (Day × List Char) := do
  let (year, cs) ← year? cs
  let (month, cs) ← smallNumber? (← afterMark? '-' cs)
  let (day, cs) ← smallNumber? (← afterMark? '-' cs)
  return (⟨year, month, day⟩, cs)

/-- The fraction of a second a text begins with, in nanoseconds. -/
def fraction? (cs : List Char) : Option (Nat × List Char) :=
  match cs with
  | '.' :: rest =>
    match takeDigits 9 rest with
    | ([], _) => none
    | (digits, rest) =>
      some (ofDigits 10 (digits ++ .replicate (9 - digits.length) 0),
        rest.dropWhile fun c => (decimalDigit? c).isSome)
  | _ => some (0, cs)

/-- A time of day, as seconds and nanoseconds. -/
def timeOfDay? (cs : List Char) : Option ((Nat × Nat) × List Char) := do
  let (hour, cs) ← smallNumber? cs
  let (minute, cs) ← smallNumber? (← afterMark? ':' cs)
  let (second, cs) ← smallNumber? (← afterMark? ':' cs)
  let (nano, cs) ← fraction? cs
  guard (hour ≤ 23 ∧ minute ≤ 59 ∧ second ≤ 60)
  let whole := hour * 3600 + minute * 60
  if second = 60 then return ((whole + 59, nanosPerSecond + nano), cs)
  else return ((whole + second, nano), cs)

/-- Two decimal digits. -/
def twoDigits? : List Char → Option (Nat × List Char)
  | c :: d :: rest => do
    let tens ← decimalDigit? c
    let units ← decimalDigit? d
    return (10 * tens + units, rest)
  | _ => none

/-- The sign of an offset: whether it is negative. The minus sign counts as the hyphen does. -/
def sign? : List Char → Option (Bool × List Char)
  | '+' :: rest => some (false, rest)
  | '-' :: rest => some (true, rest)
  | '−' :: rest => some (true, rest)
  | _ => none

/-- An offset from UTC, in seconds. -/
def offset? (cs : List Char) : Option (Int × List Char) :=
  if (cs.take 3).map Char.toLower = ['u', 't', 'c'] then some (0, cs.drop 3)
  else match cs with
    | 'Z' :: rest | 'z' :: rest => some (0, rest)
    | _ => do
      let (negative, cs) ← sign? cs
      let (hours, cs) ← twoDigits? cs
      let (minutes, cs) ← twoDigits? (cs.dropWhile fun c => c == ':' || isBlank c)
      guard (hours ≤ 23 ∧ minutes ≤ 59)
      let seconds : Int := hours * 3600 + minutes * 60
      return (if negative then -seconds else seconds, cs)

/-! ### Timestamps -/

/-- The timestamp written in a text. -/
def ofChars? (cs : List Char) : Option Timestamp := do
  let (date, cs) ← date? cs
  let time ← match cs with
    | 'T' :: rest | 't' :: rest | ' ' :: rest => some rest
    | _ => none
  let ((second, nano), cs) ← timeOfDay? time
  let (offset, cs) ← offset? (trimStart cs)
  guard (isBlankText cs ∧ date.Valid)
  let t := ofLocal ⟨date, second, nano⟩ offset
  guard t.date.Valid
  return t

/-- The timestamp written in a text. -/
def ofText? (text : String) : Option Timestamp :=
  ofChars? text.toList

end TaggedMemos.Timestamp
