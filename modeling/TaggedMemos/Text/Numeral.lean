/-!
# Numerals

Decimal and hexadecimal digits of natural numbers, and the readers for fixed and free widths.
Hexadecimal digits are written in lower case and read in either case.
-/

namespace TaggedMemos.Text

/-- The value of a decimal digit. -/
def decimalDigit? (c : Char) : Option Nat :=
  if '0' ≤ c ∧ c ≤ '9' then some (c.toNat - 48) else none

/-- The value of a hexadecimal digit. -/
def hexDigit? (c : Char) : Option Nat :=
  if '0' ≤ c ∧ c ≤ '9' then some (c.toNat - 48)
  else if 'a' ≤ c ∧ c ≤ 'f' then some (c.toNat - 87)
  else if 'A' ≤ c ∧ c ≤ 'F' then some (c.toNat - 55)
  else none

/-- The hexadecimal digit of a number below sixteen. -/
def hexDigit (n : Nat) : Char :=
  if n < 10 then Char.ofNat (48 + n) else Char.ofNat (87 + n)

/-- The lowest `width` hexadecimal digits of a number. -/
def hexDigits (width n : Nat) : List Char :=
  match width with
  | 0 => []
  | width + 1 => hexDigits width (n / 16) ++ [hexDigit (n % 16)]

/-- The number of hexadecimal digits needed to write a number. -/
def hexWidth (n : Nat) : Nat :=
  if n < 16 then 1 else hexWidth (n / 16) + 1

/-- The lowest `width` decimal digits of a number. -/
def decimalDigits (width n : Nat) : List Char :=
  match width with
  | 0 => []
  | width + 1 => decimalDigits width (n / 10) ++ [Char.ofNat (48 + n % 10)]

/-- The character with a number, which has to be a character. -/
def scalarValue? (n : Nat) : Option Char :=
  if n.isValidChar then some (Char.ofNat n) else none

/-- The number read in base `base` from digit values, most significant first. -/
def ofDigits (base : Nat) (digits : List Nat) : Nat :=
  digits.foldl (fun n d => n * base + d) 0

/-- The value of a text of decimal digits, at least one of them. -/
def decimal? (cs : List Char) : Option Nat :=
  if cs.isEmpty then none else (cs.mapM decimalDigit?).map (ofDigits 10)

/-- The value of a text of decimal digits with an optional sign in front. -/
def signedDecimal? : List Char → Option Int
  | '-' :: rest => (decimal? rest).map fun n => -(n : Int)
  | '+' :: rest => (decimal? rest).map Int.ofNat
  | cs => (decimal? cs).map Int.ofNat

/-- The value of a text of hexadecimal digits, at least one of them. -/
def hexadecimal? (cs : List Char) : Option Nat :=
  if cs.isEmpty then none else (cs.mapM hexDigit?).map (ofDigits 16)

end TaggedMemos.Text
