import TaggedMemos.Text.Numeral
import TaggedMemos.Text.Substring

/-!
# TOML Texts

A text stands in double quotes, with escapes, or in single quotes, as it is. Three quotes on both
sides let it run over several lines. No text holds a control character but the tab; one over
several lines may hold line endings.
-/

namespace TaggedMemos.Toml

open Text

/-- Whether a character may stand in a text or a comment. -/
def isPlain (c : Char) : Bool :=
  c == '\t' || (' ' ≤ c && c != '\x7f')

/-- What follows a line ending. -/
def afterNewline? : List Char → Option (List Char)
  | '\n' :: rest => some rest
  | '\r' :: '\n' :: rest => some rest
  | _ => none

/-- The character whose number is given by `width` hexadecimal digits. -/
def numberedEscape? (width : Nat) (cs : List Char) : Option (Char × List Char) := do
  let digits := cs.take width
  guard (digits.length = width)
  return (← scalarValue? (← hexadecimal? digits), cs.drop width)

/-- The character that an escape stands for, given what follows the backslash. -/
def escape? : List Char → Option (Char × List Char)
  | 'b' :: rest => some ('\x08', rest)
  | 't' :: rest => some ('\t', rest)
  | 'n' :: rest => some ('\n', rest)
  | 'f' :: rest => some ('\x0c', rest)
  | 'r' :: rest => some ('\r', rest)
  | 'e' :: rest => some ('\x1b', rest)
  | '"' :: rest => some ('"', rest)
  | '\\' :: rest => some ('\\', rest)
  | 'x' :: rest => numberedEscape? 2 rest
  | 'u' :: rest => numberedEscape? 4 rest
  | 'U' :: rest => numberedEscape? 8 rest
  | _ => none

/-- A text in double quotes, after the first quote; `fuel` bounds its length. -/
def basic? : Nat → List Char → Option (List Char × List Char)
  | 0, _ => none
  | _ + 1, '"' :: rest => some ([], rest)
  | fuel + 1, '\\' :: rest => do
    let (c, rest) ← escape? rest
    let (cs, rest) ← basic? fuel rest
    return (c :: cs, rest)
  | fuel + 1, c :: rest => do
    guard (isPlain c)
    let (cs, rest) ← basic? fuel rest
    return (c :: cs, rest)
  | _ + 1, [] => none

/-- A text in single quotes, after the first quote. -/
def literal? : List Char → Option (List Char × List Char)
  | '\'' :: rest => some ([], rest)
  | c :: rest => do
    guard (isPlain c)
    let (cs, rest) ← literal? rest
    return (c :: cs, rest)
  | [] => none

/-- What follows three quotes that end a text. Up to two more quotes before them belong to the
text. -/
def afterClosing? (quote : Char) (cs : List Char) : Option (List Char) :=
  let quotes := (cs.takeWhile (· == quote)).length
  if 3 ≤ quotes then some (cs.drop (min quotes 5)) else none

/-- Whether a backslash stands at the end of a line: then the blank characters after it do not
count, and at least one line ending is among them. -/
def afterLineEnd? (cs : List Char) : Option (List Char) :=
  let blanks := cs.takeWhile fun c => c == ' ' || c == '\t' || c == '\n' || c == '\r'
  if (afterNewline? (cs.dropWhile fun c => c == ' ' || c == '\t')).isSome then
    some (cs.drop blanks.length)
  else none

/-- The rest after a text of several lines in double quotes, given what follows its opening. -/
def afterLongBasic? : Nat → List Char → Option (List Char)
  | 0, _ => none
  | _ + 1, [] => none
  | fuel + 1, c :: rest =>
    match afterClosing? '"' (c :: rest), afterNewline? (c :: rest) with
    | some rest, _ => some rest
    | none, some rest => afterLongBasic? fuel rest
    | none, none =>
      if c = '\\' then
        match afterLineEnd? rest with
        | some rest => afterLongBasic? fuel rest
        | none => (escape? rest).bind fun (_, rest) => afterLongBasic? fuel rest
      else if isPlain c then afterLongBasic? fuel rest
      else none

/-- The rest after a text of several lines in single quotes, given what follows its opening. -/
def afterLongLiteral? : Nat → List Char → Option (List Char)
  | 0, _ => none
  | _ + 1, [] => none
  | fuel + 1, c :: rest =>
    match afterClosing? '\'' (c :: rest), afterNewline? (c :: rest) with
    | some rest, _ => some rest
    | none, some rest => afterLongLiteral? fuel rest
    | none, none => if isPlain c then afterLongLiteral? fuel rest else none

/-- The rest after a text of any kind. -/
def afterText? (cs : List Char) : Option (List Char) :=
  let fuel := cs.length
  match stripPrefix? ['"', '"', '"'] cs, stripPrefix? ['\'', '\'', '\''] cs, cs with
  | some rest, _, _ => afterLongBasic? fuel rest
  | none, some rest, _ => afterLongLiteral? fuel rest
  | none, none, '"' :: rest => (basic? fuel rest).map (·.2)
  | none, none, '\'' :: rest => (literal? rest).map (·.2)
  | none, none, _ => none

end TaggedMemos.Toml
