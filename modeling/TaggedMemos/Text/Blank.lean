/-!
# Blank Characters

A character is blank when Unicode gives it the property `White_Space`. The set is closed
(twenty-five characters, stable since Unicode 4.0 but for one removal), so it is written out.
Trimming removes blank characters from an end of a text and nothing else.
-/

namespace TaggedMemos.Text

/-- The characters with the Unicode property `White_Space`. -/
def isBlank (c : Char) : Bool :=
  let n := c.toNat
  (9 ≤ n && n ≤ 13) || n == 0x20 || n == 0x85 || n == 0xA0 || n == 0x1680 ||
    (0x2000 ≤ n && n ≤ 0x200A) || n == 0x2028 || n == 0x2029 || n == 0x202F ||
    n == 0x205F || n == 0x3000

/-- A text without the blank characters it starts with. -/
def trimStart (cs : List Char) : List Char :=
  cs.dropWhile isBlank

/-- A text without the blank characters it ends with. -/
def trimEnd (cs : List Char) : List Char :=
  (cs.reverse.dropWhile isBlank).reverse

/-- A text without the blank characters at either end. -/
def trim (cs : List Char) : List Char :=
  trimEnd (trimStart cs)

/-- Whether a text has no character that is not blank. -/
def isBlankText (cs : List Char) : Bool :=
  cs.all isBlank

/-! ### Lines -/

/-- A line from its characters backwards, without a carriage return at its end. -/
def lineOfReverse : List Char → List Char
  | '\r' :: before => before.reverse
  | backwards => backwards.reverse

/-- The lines of a text. A line ends at a line feed, and a carriage return before that line
feed belongs to the line ending. A text that ends in a line feed has no empty last line. -/
def lines (cs : List Char) : List (List Char) :=
  go [] cs
where
  /-- `line` is the line being read, backwards. -/
  go (line : List Char) : List Char → List (List Char)
    | [] => if line.isEmpty then [] else [line.reverse]
    | c :: rest =>
      if c = '\n' then lineOfReverse line :: go [] rest else go (c :: line) rest

end TaggedMemos.Text
