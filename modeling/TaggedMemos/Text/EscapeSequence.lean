/-!
# Escape Sequences of Terminals

A terminal takes some runs of characters as instructions instead of showing them. Such a run
begins with the escape character or its eight-bit form. It goes on with the choice of a character
set, or with brackets, numbers of up to four digits between semicolons, and one last character.
-/

namespace TaggedMemos.Text

/-- How far a sequence has come. -/
inductive SequenceState where
  /-- After the first character. -/
  | introduced
  /-- After a parenthesis that may begin the choice of a character set. -/
  | selecting
  /-- After the choice of a character set. -/
  | selected
  /-- After brackets. -/
  | opened
  /-- After a digit, the given number of them in a row. -/
  | number (digits : Nat)
  /-- After a semicolon between numbers. -/
  | separated
  /-- After the last character. -/
  | closed
  deriving DecidableEq, Repr

namespace SequenceState

/-- Whether a sequence can end here. -/
def isFinal : SequenceState → Bool
  | selected | number _ | closed => true
  | introduced | selecting | opened | separated => false

/-- Whether more can follow brackets, or the beginning. -/
def isEarly : SequenceState → Bool
  | introduced | selecting | opened => true
  | selected | number _ | separated | closed => false

/-- Whether a sequence can be closed by a letter. -/
def isClosable : SequenceState → Bool
  | number digits => digits < 5
  | separated => true
  | state => state.isEarly

/-- The characters that close a sequence. -/
def closing : List Char :=
  "ABCDEFGHIJKLMNOPRZcfghijklmnqry=><".toList

/-- A sequence with one more character, if there is such a sequence. -/
def next? (state : SequenceState) (c : Char) : Option SequenceState :=
  if c == '(' || c == ')' then
    if state = introduced then some selecting else if state.isEarly then some opened else none
  else if c == ';' then
    if state.isEarly then some opened else if state.isClosable then some separated else none
  else if c == '[' || c == '#' || c == '?' then
    if state.isEarly then some opened else none
  else if c.isDigit then
    match state with
    | introduced | opened | separated => some (number 1)
    | selecting => some (if c ≤ '2' then selected else number 1)
    | number digits => if digits < 5 then some (number (digits + 1)) else none
    | selected | closed => none
  else if closing.contains c then
    if state.isClosable then some closed else none
  else none

end SequenceState

/-- Whether a character begins a sequence. -/
def isIntroducer (c : Char) : Bool :=
  c == '\x1b' || c == '\u009b'

/-- The length of the longest sequence, given the state after `read` characters and the length of
the longest one so far. -/
def longestSequence (state : SequenceState) (read longest : Nat) : List Char → Nat
  | [] => longest
  | c :: rest =>
    match state.next? c with
    | none => longest
    | some state =>
      longestSequence state (read + 1) (if state.isFinal then read + 1 else longest) rest

/-- The length of the sequence that a text begins with; zero if it begins with none. -/
def sequenceLength : List Char → Nat
  | [] => 0
  | c :: rest => if isIntroducer c then longestSequence .introduced 1 0 rest else 0

/-- A character of a text, marked if it belongs to a sequence. -/
structure MarkedChar where
  /-- The character. -/
  char : Char
  /-- Whether it belongs to a sequence. -/
  inSequence : Bool
  deriving DecidableEq, Repr

/-- A text with the characters of its sequences marked; `inside` characters belong to a sequence
that began before. -/
def markedFrom : Nat → List Char → List MarkedChar
  | _, [] => []
  | inside + 1, c :: rest => ⟨c, true⟩ :: markedFrom inside rest
  | 0, c :: rest =>
    match sequenceLength (c :: rest) with
    | 0 => ⟨c, false⟩ :: markedFrom 0 rest
    | length + 1 => ⟨c, true⟩ :: markedFrom length rest

/-- A text with the characters of its sequences marked. -/
def marked (cs : List Char) : List MarkedChar :=
  markedFrom 0 cs

end TaggedMemos.Text
