import TaggedMemos.Text.Numeral
import TaggedMemos.Text.Pattern

/-!
# Flags and Escapes of Patterns

A pattern is written as a text. Flags, which the text can change on its way, say how the rest of
it is read. A backslash takes the meaning from a sign, or stands with letters for a character, a
set or a place.

Every reader here gives what it has read and the text behind it, or nothing if the text is not a
pattern.
-/

namespace TaggedMemos.Text.Pattern

/-! ### Flags -/

/-- How a pattern is read. -/
structure Flags where
  /-- Whether upper and lower case are the same. -/
  anyCase : Bool := false
  /-- Whether lines begin and end at line endings. -/
  manyLines : Bool := false
  /-- Whether a dot stands for a line ending too. -/
  dotIsAny : Bool := false
  /-- Whether a repetition is as short as possible, which makes no difference to what is found. -/
  short : Bool := false
  /-- Whether all characters are known, and not those of ASCII alone. -/
  unicode : Bool := true
  /-- Whether a carriage return ends a line. -/
  returns : Bool := false
  /-- Whether blanks and comments are passed by. -/
  spaced : Bool := false
  deriving DecidableEq, Repr

namespace Flags

/-- The flags with the one changed that a letter stands for. -/
def set? (f : Flags) (on : Bool) : Char → Option Flags
  | 'i' => some { f with anyCase := on }
  | 'm' => some { f with manyLines := on }
  | 's' => some { f with dotIsAny := on }
  | 'U' => some { f with short := on }
  | 'u' => some { f with unicode := on }
  | 'R' => some { f with returns := on }
  | 'x' => some { f with spaced := on }
  | _ => none

/-- A text without the blanks and comments it begins with, perhaps in the middle of a comment. -/
def passBlanks : Bool → List Char → List Char
  | _, [] => []
  | true, c :: cs => passBlanks (c != '\n') cs
  | false, c :: cs =>
    if isBlank c then passBlanks false cs
    else if c == '#' then passBlanks true cs
    else c :: cs

/-- A text without the blanks it begins with, where they do not matter. -/
def pass (f : Flags) (cs : List Char) : List Char :=
  if f.spaced then passBlanks false cs else cs

/-- A set without regard to case, where case does not matter. -/
def cased (f : Flags) (s : CharSet) : CharSet :=
  if f.anyCase then .anyCase s else s

/-- The characters from one to another, which have to be known. -/
def range? (f : Flags) (first last : Char) : Option CharSet :=
  if f.unicode || last.toNat < 128 then some (f.cased (.range first last)) else none

/-- The characters that are not in a set; where ASCII alone is known, nobody can tell. -/
def complement? (f : Flags) (s : CharSet) : Option CharSet :=
  if f.unicode then some (.complement s) else none

/-- The set that a dot stands for. -/
def dot? (f : Flags) : Option CharSet :=
  f.complement? <|
    if f.dotIsAny then .nothing
    else if f.returns then .union (.single '\n') (.single '\x0d')
    else .single '\n'

/-- The decimal digits. -/
def digits (f : Flags) : CharSet :=
  if f.unicode then .having .digit else .range '0' '9'

/-- The blank characters. -/
def blanks (f : Flags) : CharSet :=
  if f.unicode then .having .blank else .ranges [('\t', '\x0d'), (' ', ' ')]

/-- The parts of words. -/
def wordChars (f : Flags) : CharSet :=
  if f.unicode then .having .word else .ranges [('0', '9'), ('A', 'Z'), ('_', '_'), ('a', 'z')]

/-- The place with an edge of a word. -/
def wordPlace (f : Flags) (edge : WordEdge) : Anchor :=
  .word edge f.wordChars

end Flags

/-! ### Escapes -/

/-- What an escape stands for. -/
inductive Escaped where
  /-- A character. -/
  | char (c : Char)
  /-- A set of characters. -/
  | set (s : CharSet)
  /-- A kind of place. -/
  | place (a : Anchor)
  deriving DecidableEq, Repr

/-- The character that a number of hexadecimal digits stands for, given the value of those before
them. -/
def digitsEscape? (f : Flags) (value : Nat) : Nat → List Char → Option (Char × List Char)
  | 0, cs => do return (← scalarValue? value, f.pass cs)
  | _ + 1, [] => none
  | width + 1, c :: cs => do
    let digit ← hexDigit? c
    digitsEscape? f (16 * value + digit) width (if width = 0 then cs else f.pass cs)

/-- The text up to a brace that closes, without the blanks that do not matter. -/
def bracedText? (f : Flags) (inComment : Bool) : List Char → Option (List Char × List Char)
  | [] => none
  | c :: cs =>
    if inComment then bracedText? f (c != '\n') cs
    else if f.spaced && isBlank c then bracedText? f false cs
    else if f.spaced && c == '#' then bracedText? f true cs
    else if c == '}' then some ([], cs)
    else do
      let (text, rest) ← bracedText? f false cs
      return (c :: text, rest)

/-- The character with a hexadecimal number, in braces or with a fixed number of digits. -/
def numberedChar? (f : Flags) (width : Nat) (cs : List Char) : Option (Char × List Char) :=
  match f.pass cs with
  | '{' :: rest => do
    let (text, rest) ← bracedText? f false rest
    return (← scalarValue? (← hexadecimal? text), f.pass rest)
  | cs => digitsEscape? f 0 width cs

/-- The set of characters with a property given by name. -/
def propertySet? (name : List Char) : Option CharSet :=
  let plain := (name.filter fun c => c != ' ' && c != '_' && c != '-').map Char.toLower
  match String.ofList plain with
  | "l" | "letter" => some (.having .letter)
  | "m" | "mark" | "combiningmark" => some (.having .mark)
  | "n" | "number" => some (.having .number)
  | "nd" | "decimalnumber" | "digit" => some (.having .digit)
  | "whitespace" | "wspace" | "space" => some (.having .blank)
  | "any" => some (.complement .nothing)
  | "ascii" => some (.range (Char.ofNat 0) (Char.ofNat 127))
  | _ => none

/-- The property in an escape, in braces or with one letter. -/
def property? (f : Flags) (cs : List Char) : Option (CharSet × List Char) := do
  guard f.unicode
  match f.pass cs with
  | '{' :: rest => do
    let (name, rest) ← bracedText? f false rest
    return (f.cased (← propertySet? name), rest)
  | c :: rest => return (f.cased (← propertySet? [c]), f.pass rest)
  | [] => none

/-- Whether a character can be part of the name of an edge. -/
def isEdgeNameChar (c : Char) : Bool :=
  c.isAlpha || c == '-'

/-- The edge of a word given by name. -/
def edge? (name : List Char) : Option WordEdge :=
  match String.ofList name with
  | "start" => some .start
  | "end" => some .stop
  | "start-half" => some .startHalf
  | "end-half" => some .stopHalf
  | _ => none

/-- The edge of a word behind the letter for it: one given by name in braces, or any. Braces that
do not begin with a letter belong to a repetition. -/
def boundary? (f : Flags) (cs : List Char) : Option (WordEdge × List Char) :=
  match cs with
  | '{' :: inside =>
    match f.pass inside with
    | [] => none
    | c :: _ =>
      if isEdgeNameChar c then do
        let (name, rest) ← bracedText? f false inside
        return (← edge? name, rest)
      else some (.boundary, cs)
  | _ => some (.boundary, cs)

/-- What an escape stands for, given what follows the backslash. -/
def escape? (f : Flags) : List Char → Option (Escaped × List Char)
  | [] => none
  | c :: rest =>
    let set (s : CharSet) : Option (Escaped × List Char) := some (.set s, rest)
    let outside (s : CharSet) : Option (Escaped × List Char) := do
      return (.set (← f.complement? s), rest)
    let char (c : Char) : Option (Escaped × List Char) := some (.char c, rest)
    let place (a : Anchor) : Option (Escaped × List Char) := some (.place a, rest)
    let numbered (width : Nat) : Option (Escaped × List Char) := do
      let (c, rest) ← numberedChar? f width rest
      return (.char c, rest)
    match c with
    | 'd' => set f.digits
    | 'D' => outside f.digits
    | 's' => set f.blanks
    | 'S' => outside f.blanks
    | 'w' => set f.wordChars
    | 'W' => outside f.wordChars
    | 'p' => do
      let (s, rest) ← property? f rest
      return (.set s, rest)
    | 'P' => do
      let (s, rest) ← property? f rest
      return (.set (.complement s), rest)
    | 'x' => numbered 2
    | 'u' => numbered 4
    | 'U' => numbered 8
    | 'a' => char '\x07'
    | 'f' => char '\x0c'
    | 't' => char '\t'
    | 'n' => char '\n'
    | 'r' => char '\x0d'
    | 'v' => char '\x0b'
    | 'A' => place .textStart
    | 'z' => place .textEnd
    | 'b' => do
      let (edge, rest) ← boundary? f rest
      return (.place (f.wordPlace edge), rest)
    | 'B' => place (f.wordPlace .noBoundary)
    | '<' => place (f.wordPlace .start)
    | '>' => place (f.wordPlace .stop)
    | c => if c.toNat < 128 && !c.isAlphanum then char c else none

end TaggedMemos.Text.Pattern
