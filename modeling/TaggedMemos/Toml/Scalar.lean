import TaggedMemos.Text.Numeral
import TaggedMemos.Time.Calendar

/-!
# TOML Scalars

Values that are neither texts nor compound are written without blanks, but for the one that may
stand between a date and a time. Only integers are wanted for their value. Of all others it is
enough to know that they are well formed.
-/

namespace TaggedMemos.Toml

open Text

/-- A value: an integer, or one whose value nobody asks for. -/
inductive Value where
  /-- An integer. -/
  | integer (n : Int)
  /-- Anything else. -/
  | other
  deriving DecidableEq, Repr, Inhabited

/-! ### Numbers -/

/-- Digits with single underscores between them, the underscores left out. -/
def grouped? (isDigit : Char → Bool) : List Char → Option (List Char)
  | [] => none
  | [c] => if isDigit c then some [c] else none
  | c :: '_' :: rest =>
    if isDigit c then (grouped? isDigit rest).map (c :: ·) else none
  | c :: rest => if isDigit c then (grouped? isDigit rest).map (c :: ·) else none

/-- The digits of a decimal number without a superfluous zero in front. -/
def wholeDigits? (cs : List Char) : Option (List Char) :=
  match grouped? Char.isDigit cs with
  | some ['0'] => some ['0']
  | some ('0' :: _) => none
  | digits => digits

/-- The value of a digit below `base`. -/
def digitBelow? (base : Nat) (c : Char) : Option Nat :=
  (hexDigit? c).filter (· < base)

/-- A number written in a base. -/
def ofBase? (base : Nat) (cs : List Char) : Option Nat := do
  let digits ← grouped? (fun c => (digitBelow? base c).isSome) cs
  return ofDigits base (← digits.mapM (digitBelow? base))

/-- Whether a text begins with a sign that is a minus, and the rest. -/
def signed : List Char → Bool × List Char
  | '-' :: rest => (true, rest)
  | '+' :: rest => (false, rest)
  | cs => (false, cs)

/-- A decimal number with an optional sign. -/
def decimalInteger? (cs : List Char) : Option Int := do
  let (negative, cs) := signed cs
  let n ← decimal? (← wholeDigits? cs)
  return if negative then -n else n

/-- An integer, of any size. -/
def unboundedInteger? : List Char → Option Int
  | '0' :: 'x' :: rest => (ofBase? 16 rest).map Int.ofNat
  | '0' :: 'o' :: rest => (ofBase? 8 rest).map Int.ofNat
  | '0' :: 'b' :: rest => (ofBase? 2 rest).map Int.ofNat
  | cs => decimalInteger? cs

/-- An integer that 128 bits can hold, with or without a sign. -/
def integer? (cs : List Char) : Option Int :=
  (unboundedInteger? cs).filter fun n =>
    decide (-170141183460469231731687303715884105728 ≤ n) &&
      decide (n ≤ 340282366920938463463374607431768211455)

/-- Whether a character begins an exponent. -/
def isExponentMark (c : Char) : Bool :=
  c == 'e' || c == 'E'

/-- The exponent that follows its mark. -/
def exponent? (cs : List Char) : Option Int := do
  let (negative, cs) := signed cs
  let n ← decimal? (← grouped? Char.isDigit cs)
  return if negative then -n else n

/-- A number with a point or an exponent. -/
structure Fractional where
  /-- The digits before and after the point. -/
  digits : List Char
  /-- The power of ten that the number which the digits make is multiplied by. -/
  scale : Int

/-- The number that digits, the digits after a point and an exponent make. -/
def Fractional.of (whole fraction : List Char) (exponent : Int) : Fractional :=
  ⟨whole ++ fraction, exponent - fraction.length⟩

/-- A number with a point or an exponent, without a sign. -/
def fractional? (cs : List Char) : Option Fractional :=
  match cs.span fun c => c != '.' && !isExponentMark c with
  | (_, []) => none
  | (whole, '.' :: rest) => do
    let whole ← wholeDigits? whole
    let (fraction, rest) := rest.span fun c => !isExponentMark c
    let fraction ← grouped? Char.isDigit fraction
    match rest with
    | [] => return .of whole fraction 0
    | _ :: rest => return .of whole fraction (← exponent? rest)
  | (whole, _ :: rest) => do
    return .of (← wholeDigits? whole) [] (← exponent? rest)

/-- The least number that is too large for double precision: halfway from the largest one there is
to the next power of two. -/
def doubleBound : Nat := (1 <<< 1024) - (1 <<< 970)

/-- The number of digits of that number. -/
def doubleBoundWidth : Nat := 309

/-- Whether double precision can hold a number. -/
def Fractional.isDouble (number : Fractional) : Bool :=
  let digits := number.digits.dropWhile (· == '0')
  let width := digits.length + number.scale
  let leading := (digits ++ List.replicate doubleBoundWidth '0').take doubleBoundWidth
  digits.isEmpty || decide (width < doubleBoundWidth) ||
    (decide (width = doubleBoundWidth) && decide ((decimal? leading).getD 0 < doubleBound))

/-- Whether a text is a number with a point or an exponent, infinite, or no number at all. -/
def isFloat (cs : List Char) : Bool :=
  let cs := (signed cs).2
  cs == "inf".toList || cs == "nan".toList || (fractional? cs).any Fractional.isDouble

/-! ### Dates and times -/

/-- The number that a fixed number of digits at the beginning of a text make. -/
def fixed? (width : Nat) (cs : List Char) : Option (Nat × List Char) :=
  let digits := cs.take width
  if digits.length = width then (decimal? digits).map fun n => (n, cs.drop width) else none

/-- What follows a character. -/
def after? (mark : Char) : List Char → Option (List Char)
  | c :: rest => if c = mark then some rest else none
  | [] => none

/-- The rest of a text after a date. -/
def afterDate? (cs : List Char) : Option (List Char) := do
  let (year, cs) ← fixed? 4 cs
  let (month, cs) ← fixed? 2 (← after? '-' cs)
  let (day, cs) ← fixed? 2 (← after? '-' cs)
  guard (Day.Valid ⟨year, month, day⟩)
  return cs

/-- The rest of a text after a fraction of a second, if there is one. -/
def afterFraction? : List Char → Option (List Char)
  | '.' :: c :: rest =>
    if c.isDigit then some (rest.dropWhile Char.isDigit) else none
  | '.' :: [] => none
  | cs => some cs

/-- The rest of a text after a time of day, which may be without seconds. -/
def afterTime? (cs : List Char) : Option (List Char) := do
  let (hour, cs) ← fixed? 2 cs
  let (minute, cs) ← fixed? 2 (← after? ':' cs)
  guard (hour ≤ 23 ∧ minute ≤ 59)
  match after? ':' cs with
  | none => some cs
  | some cs =>
    let (second, cs) ← fixed? 2 cs
    guard (second ≤ 60)
    afterFraction? cs

/-- Whether a text is an offset from UTC. -/
def isOffset : List Char → Bool
  | ['Z'] | ['z'] => true
  | c :: rest =>
    (c == '+' || c == '-') &&
      match fixed? 2 rest with
      | some (hour, ':' :: rest) =>
        match fixed? 2 rest with
        | some (minute, []) => decide (hour ≤ 23) && decide (minute ≤ 59)
        | _ => false
      | _ => false
  | [] => false

/-- Whether a text is a date, a time of day, or both with or without an offset. -/
def isMoment (cs : List Char) : Bool :=
  match afterDate? cs with
  | some [] => true
  | some (c :: rest) =>
    (c == 'T' || c == 't' || c == ' ') &&
      match afterTime? rest with
      | some rest => rest.isEmpty || isOffset rest
      | none => false
  | none => afterTime? cs == some []

/-! ### Scalars -/

/-- Whether a character can occur in a scalar. -/
def isScalarChar (c : Char) : Bool :=
  c.isAlphanum || c == '+' || c == '-' || c == '_' || c == '.' || c == ':'

/-- The text of a scalar at the beginning of a text, and the rest. A date is taken together with
a digit that follows it after one space. -/
def scalarText (cs : List Char) : List Char × List Char :=
  match cs.span isScalarChar with
  | (text, ' ' :: c :: rest) =>
    if c.isDigit && afterDate? text == some [] then
      let (time, rest) := (c :: rest).span isScalarChar
      (text ++ ' ' :: time, rest)
    else (text, ' ' :: c :: rest)
  | parts => parts

/-- A scalar at the beginning of a text. -/
def scalar? (cs : List Char) : Option (Value × List Char) :=
  let (text, rest) := scalarText cs
  match integer? text with
  | some n => some (.integer n, rest)
  | none =>
    if text == "true".toList || text == "false".toList || isFloat text || isMoment text then
      some (.other, rest)
    else none

end TaggedMemos.Toml
