import TaggedMemos.Text.Numeral

/-!
# JSON Tokens

A JSON text is a sequence of tokens with blanks between them. A blank is a space, a tab, a line
feed or a carriage return. A text token stands in quotes and holds no control character; a
number has no superfluous zero in front and digits on both sides of its point.
-/

namespace TaggedMemos.Json

open Text

/-- A piece of a JSON text that has a meaning of its own. -/
inductive Token where
  /-- The word `null`. -/
  | null
  /-- The words `true` and `false`. -/
  | bool (value : Bool)
  /-- A number; its value when it is written as an integer. -/
  | number (value : Option Int)
  /-- A text; missing when it has a surrogate without its partner. -/
  | text (value : Option String)
  /-- The bracket before the items of an array. -/
  | openArray
  /-- The bracket after the items of an array. -/
  | closeArray
  /-- The brace before the fields of an object. -/
  | openObject
  /-- The brace after the fields of an object. -/
  | closeObject
  /-- A comma. -/
  | comma
  /-- A colon. -/
  | colon
  deriving DecidableEq, Repr

/-- Whether a character may stand between tokens. -/
def isBlank (c : Char) : Bool :=
  c == ' ' || c == '\t' || c == '\n' || c == '\r'

/-! ### Texts -/

/-- What a text consists of: characters, and code units of UTF-16 written by their numbers. -/
inductive Piece where
  /-- A character that stands for itself or has a short escape. -/
  | char (c : Char)
  /-- A code unit. -/
  | unit (n : Nat)
  deriving DecidableEq, Repr

/-- The character that a letter after a backslash stands for. -/
def unescape? : Char → Option Char
  | '"' => some '"'
  | '\\' => some '\\'
  | '/' => some '/'
  | 'b' => some '\x08'
  | 'f' => some '\x0c'
  | 'n' => some '\n'
  | 'r' => some '\r'
  | 't' => some '\t'
  | _ => none

/-- The pieces of a text after its opening quote, and what follows its closing quote. -/
def pieces? : List Char → Option (List Piece × List Char)
  | [] => none
  | '"' :: rest => some ([], rest)
  | '\\' :: 'u' :: a :: b :: c :: d :: rest => do
    let n ← hexadecimal? [a, b, c, d]
    let (pieces, rest) ← pieces? rest
    return (.unit n :: pieces, rest)
  | '\\' :: e :: rest => do
    let c ← unescape? e
    let (pieces, rest) ← pieces? rest
    return (.char c :: pieces, rest)
  | c :: rest => do
    guard (' ' ≤ c)
    let (pieces, rest) ← pieces? rest
    return (.char c :: pieces, rest)

/-- Whether a code unit is the first half of a pair. -/
def isHighSurrogate (n : Nat) : Bool :=
  0xD800 ≤ n && n < 0xDC00

/-- Whether a code unit is the second half of a pair. -/
def isLowSurrogate (n : Nat) : Bool :=
  0xDC00 ≤ n && n < 0xE000

/-- The character of a pair of surrogates. -/
def ofSurrogates (high low : Nat) : Char :=
  Char.ofNat (0x10000 + (high - 0xD800) * 0x400 + (low - 0xDC00))

/-- The characters of a list of pieces, unless a surrogate lacks its partner. -/
def joined? : List Piece → Option (List Char)
  | [] => some []
  | .char c :: rest => (joined? rest).map (c :: ·)
  | [.unit n] =>
    if isHighSurrogate n || isLowSurrogate n then none else some [Char.ofNat n]
  | .unit n :: .char c :: rest =>
    if isHighSurrogate n || isLowSurrogate n then none
    else (joined? rest).map (Char.ofNat n :: c :: ·)
  | .unit n :: .unit m :: rest =>
    if isHighSurrogate n && isLowSurrogate m then (joined? rest).map (ofSurrogates n m :: ·)
    else if isHighSurrogate n || isLowSurrogate n then none
    else (joined? (.unit m :: rest)).map (Char.ofNat n :: ·)

/-! ### Numbers -/

/-- Digits at the beginning of a text, and the rest. -/
def digits (cs : List Char) : List Char × List Char :=
  (cs.takeWhile Char.isDigit, cs.dropWhile Char.isDigit)

/-- The digits before the point of a number: a zero alone, or digits that begin with another. -/
def wholePart? (cs : List Char) : Option (Nat × List Char) :=
  match digits cs with
  | (['0'], rest) => some (0, rest)
  | ('0' :: _, _) => none
  | (ds, rest) => (decimal? ds).map fun n => (n, rest)

/-- What follows digits, at least one of them. -/
def afterDigits? (cs : List Char) : Option (List Char) :=
  if (digits cs).1.isEmpty then none else some (digits cs).2

/-- Whether a fraction follows, and the rest. -/
def fraction? : List Char → Option (Bool × List Char)
  | '.' :: rest => (afterDigits? rest).map fun rest => (true, rest)
  | cs => some (false, cs)

/-- The text after a sign, if it begins with one. -/
def afterSign : List Char → List Char
  | '+' :: rest => rest
  | '-' :: rest => rest
  | cs => cs

/-- Whether an exponent follows, and the rest. -/
def exponent? : List Char → Option (Bool × List Char)
  | 'e' :: rest => (afterDigits? (afterSign rest)).map fun rest => (true, rest)
  | 'E' :: rest => (afterDigits? (afterSign rest)).map fun rest => (true, rest)
  | cs => some (false, cs)

/-- A number that begins here. Minus zero is no integer. -/
def number? (cs : List Char) : Option (Token × List Char) := do
  let negative := cs.head? == some '-'
  let (n, cs) ← wholePart? (if negative then cs.tail else cs)
  let (fraction, cs) ← fraction? cs
  let (exponent, cs) ← exponent? cs
  let integer := !fraction && !exponent && !(negative && n == 0)
  let value : Int := if negative then -n else n
  return (.number (if integer then some value else none), cs)

/-! ### Tokens -/

/-- The token that a text begins with. -/
def token? : List Char → Option (Token × List Char)
  | '[' :: rest => some (.openArray, rest)
  | ']' :: rest => some (.closeArray, rest)
  | '\x7b' :: rest => some (.openObject, rest)
  | '\x7d' :: rest => some (.closeObject, rest)
  | ',' :: rest => some (.comma, rest)
  | ':' :: rest => some (.colon, rest)
  | 'n' :: 'u' :: 'l' :: 'l' :: rest => some (.null, rest)
  | 't' :: 'r' :: 'u' :: 'e' :: rest => some (.bool true, rest)
  | 'f' :: 'a' :: 'l' :: 's' :: 'e' :: rest => some (.bool false, rest)
  | '"' :: rest =>
    (pieces? rest).map fun (pieces, rest) =>
      (.text ((joined? pieces).map String.ofList), rest)
  | cs => number? cs

/-- The tokens of a text, `fuel` of them at most. -/
def tokensWithin : Nat → List Char → Option (List Token)
  | fuel, cs =>
    match cs.dropWhile isBlank, fuel with
    | [], _ => some []
    | _ :: _, 0 => none
    | c :: rest, fuel + 1 => do
      let (token, rest) ← token? (c :: rest)
      let tokens ← tokensWithin fuel rest
      return token :: tokens

/-- The tokens of a text. A text has no more tokens than characters. -/
def tokens? (cs : List Char) : Option (List Token) :=
  tokensWithin cs.length cs

end TaggedMemos.Json
