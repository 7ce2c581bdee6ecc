import TaggedMemos.Text.Offset

/-!
# Cursors and Line Endings

Markdown is read with a cursor: how many bytes of the text were read, and what is left of it.
Recognisers look at what is left and answer with a number of characters; they never move a cursor
themselves.

A line ends with a line feed, a carriage return, or both in that order. A gap is a space, a
tab, a line tabulation or a form feed.
-/

namespace TaggedMemos.Markdown

/-- A position in a text. -/
structure Cursor where
  /-- The number of bytes before the position. -/
  pos : Nat := 0
  /-- The text from the position on. -/
  rest : List Char

/-- A cursor moved on by a number of characters, or to the end of the text. -/
def Cursor.skip : Nat → Cursor → Cursor
  | 0, cursor => cursor
  | n + 1, cursor =>
    match cursor.rest with
    | [] => cursor
    | c :: rest => Cursor.skip n ⟨cursor.pos + c.utf8Size, rest⟩

/-- Moves past characters for as long as the position is before `target`. -/
def Cursor.seekFrom (target pos : Nat) : List Char → Cursor
  | [] => ⟨pos, []⟩
  | c :: rest =>
    if target ≤ pos then ⟨pos, c :: rest⟩ else seekFrom target (pos + c.utf8Size) rest

/-- A cursor moved on to a position, or to the end of the text. -/
def Cursor.seek (target : Nat) (cursor : Cursor) : Cursor :=
  seekFrom target cursor.pos cursor.rest

/-- A cursor with what is left of the text going up to the offset `stop` only. -/
def Cursor.upTo (stop : Nat) (cursor : Cursor) : Cursor :=
  match Text.cutAt? (stop - cursor.pos) cursor.rest with
  | some (rest, _) => { cursor with rest }
  | none => cursor

/-! ### Character classes -/

/-- The characters of a gap within a line. -/
def isGap (c : Char) : Bool :=
  c == ' ' || c == '\t' || c == '\x0b' || c == '\x0c'

/-- The characters that end a line. -/
def isEol (c : Char) : Bool :=
  c == '\n' || c == '\r'

/-- The characters of a gap or a line ending. -/
def isSpacing (c : Char) : Bool :=
  isGap c || isEol c

/-- The ASCII letters. -/
def isAsciiLetter (c : Char) : Bool :=
  ('a' ≤ c && c ≤ 'z') || ('A' ≤ c && c ≤ 'Z')

/-- The ASCII digits. -/
def isAsciiDigit (c : Char) : Bool :=
  '0' ≤ c && c ≤ '9'

/-- The ASCII letters and digits. -/
def isAsciiAlphanumeric (c : Char) : Bool :=
  isAsciiLetter c || isAsciiDigit c

/-! ### Recognisers -/

/-- The number of characters at the front that satisfy a test. -/
def countWhile (test : Char → Bool) (cs : List Char) : Nat :=
  (cs.takeWhile test).length

/-- The length of the line ending a text begins with; the end of the text counts as one of
length zero. -/
def eol? : List Char → Option Nat
  | [] => some 0
  | '\n' :: _ => some 1
  | '\r' :: '\n' :: _ => some 2
  | '\r' :: _ => some 1
  | _ => none

/-- The length of the blank line a text begins with, its ending included. -/
def blankLine? (cs : List Char) : Option Nat :=
  let gap := countWhile isGap cs
  (eol? (cs.drop gap)).map (gap + ·)

/-- A cursor moved past a gap. -/
def Cursor.skipGap (cursor : Cursor) : Cursor :=
  cursor.skip (countWhile isGap cursor.rest)

/-- A cursor moved past the blank rest of a line; where the rest is not blank it stays. -/
def Cursor.skipBlank (cursor : Cursor) : Cursor :=
  cursor.skip ((blankLine? cursor.rest).getD 0)

/-- The length of a text up to and including its first line feed. -/
def throughLineFeed (cs : List Char) : Nat :=
  let n := countWhile (· != '\n') cs
  if cs.length = n then n else n + 1

/-- Whether a text begins with `start`, letters compared without case. -/
def startsWithCaseless (start cs : List Char) : Bool :=
  (cs.take start.length).map Char.toLower == start

end TaggedMemos.Markdown
