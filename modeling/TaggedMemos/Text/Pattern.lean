import TaggedMemos.Text.Blank
import TaggedMemos.Text.CaseFold
import TaggedMemos.Text.WordChar

/-!
# Patterns

A pattern describes texts: one character of a set, a place such as the end of a word, one pattern
after another, one of two, or one several times over. It is found in a text if it describes some
part of the text.

A text has one place more than characters: before the first one, and after each. `reached` says
to which places one comes from given places by reading what a pattern describes. A set of places
is a list of truth values, so a choice never has to be taken back, and repeating a pattern comes
to an end as soon as it reaches no new place.
-/

namespace TaggedMemos.Text

/-! ### Sets of characters -/

/-- A property of characters. -/
inductive CharProperty where
  /-- To be a decimal digit. -/
  | digit
  /-- To be a number. -/
  | number
  /-- To be a letter. -/
  | letter
  /-- To be a mark. -/
  | mark
  /-- To be blank. -/
  | blank
  /-- To be a part of words. -/
  | word
  deriving DecidableEq, Repr

/-- Whether a character has a property. -/
def CharProperty.holds : CharProperty → Char → Bool
  | digit => isDecimalDigit
  | number => isNumber
  | letter => isLetter
  | mark => isMark
  | blank => isBlank
  | word => isWordChar

/-- A set of characters. -/
inductive CharSet where
  /-- No character. -/
  | nothing
  /-- The characters from one to another. -/
  | range (first last : Char)
  /-- The characters with a property. -/
  | having (property : CharProperty)
  /-- The characters of two sets. -/
  | union (s t : CharSet)
  /-- The characters that two sets share. -/
  | inter (s t : CharSet)
  /-- The characters that are not in a set. -/
  | complement (s : CharSet)
  /-- The characters of a set, in upper and lower case. -/
  | anyCase (s : CharSet)
  deriving DecidableEq, Repr

/-- Whether a set has a character. -/
def CharSet.contains : CharSet → Char → Bool
  | nothing, _ => false
  | range first last, c => first ≤ c && c ≤ last
  | having property, c => property.holds c
  | union s t, c => s.contains c || t.contains c
  | inter s t, c => s.contains c && t.contains c
  | complement s, c => !s.contains c
  | anyCase s, c => (caseVariants c).any fun d => s.contains d

namespace CharSet

/-- The set of one character. -/
def single (c : Char) : CharSet :=
  range c c

/-- The characters of a list of ranges. -/
def ranges (pairs : List (Char × Char)) : CharSet :=
  pairs.foldr (fun (first, last) s => union (range first last) s) nothing

/-- The characters of a set that are not in another. -/
def diff (s t : CharSet) : CharSet :=
  inter s (complement t)

/-- The characters of one of two sets and not of both. -/
def symmDiff (s t : CharSet) : CharSet :=
  union (diff s t) (diff t s)

end CharSet

/-! ### Places -/

/-- What words have to do with a place. -/
inductive WordEdge where
  /-- A word begins or ends there. -/
  | boundary
  /-- No word begins or ends there. -/
  | noBoundary
  /-- A word begins there. -/
  | start
  /-- A word ends there. -/
  | stop
  /-- No word stands before it. -/
  | startHalf
  /-- No word stands behind it. -/
  | stopHalf
  deriving DecidableEq, Repr

/-- A kind of place in a text. -/
inductive Anchor where
  /-- The beginning of the text. -/
  | textStart
  /-- The end of the text. -/
  | textEnd
  /-- The beginning of a line, where a carriage return may end a line or not. -/
  | lineStart (returns : Bool)
  /-- The end of a line, where a carriage return may end a line or not. -/
  | lineEnd (returns : Bool)
  /-- A place with or without an edge of a word, whose characters a set holds. -/
  | word (edge : WordEdge) (chars : CharSet)
  deriving DecidableEq, Repr

/-- Whether words are as an edge says, given whether a part of a word stands before and behind. -/
def WordEdge.holds : WordEdge → Bool → Bool → Bool
  | boundary, before, after => before != after
  | noBoundary, before, after => before == after
  | start, before, after => !before && after
  | stop, before, after => before && !after
  | startHalf, before, _ => !before
  | stopHalf, _, after => !after

/-- Whether a place is of a kind, given the characters before and behind it. -/
def Anchor.holds (before after : Option Char) : Anchor → Bool
  | textStart => before.isNone
  | textEnd => after.isNone
  | lineStart returns =>
    before.isNone || before == some '\n' ||
      (returns && before == some '\x0d' && after != some '\n')
  | lineEnd returns =>
    after.isNone || (after == some '\n' && !(returns && before == some '\x0d')) ||
      (returns && after == some '\x0d')
  | word edge chars => edge.holds (before.any chars.contains) (after.any chars.contains)

/-! ### Patterns -/

/-- A description of texts. -/
inductive Pattern where
  /-- The empty text. -/
  | empty
  /-- One character of a set. -/
  | char (set : CharSet)
  /-- The empty text at a kind of place. -/
  | place (anchor : Anchor)
  /-- What one pattern describes, followed by what another does. -/
  | sequence (p q : Pattern)
  /-- What one of two patterns describes. -/
  | choice (p q : Pattern)
  /-- What a pattern describes, a number of times between two bounds. -/
  | repeated (p : Pattern) (least : Nat) (most : Option Nat)
  deriving DecidableEq, Repr

/-- The characters around each place of a text that a character may stand before. -/
def surroundings (before : Option Char) : List Char → List (Option Char × Option Char)
  | [] => [(before, none)]
  | c :: cs => (before, some c) :: surroundings (some c) cs

/-- The places after a number of steps, or earlier if a step changes nothing. -/
def afterSteps (step : List Bool → List Bool) : Nat → List Bool → List Bool
  | 0, places => places
  | n + 1, places =>
    let next := step places
    if next = places then places else afterSteps step n next

/-- The places after a number of steps at most. -/
def withinSteps (step : List Bool → List Bool) : Nat → List Bool → List Bool
  | 0, places => places
  | n + 1, places =>
    let more := List.zipWith (· || ·) places (step places)
    if more = places then places else withinSteps step n more

namespace Pattern

/-- The places of a text to which one comes from given places by reading what a pattern
describes. A text of `n` characters allows `n` steps forward, so `n` repetitions more than are
needed are enough, and so is one more than `n` where more are needed. -/
def reached (text : List Char) : Pattern → List Bool → List Bool
  | empty, places => places
  | char set, places =>
    false :: List.zipWith (fun isReached c => isReached && set.contains c) places text
  | place anchor, places =>
    List.zipWith (fun isReached (before, after) => isReached && anchor.holds before after) places
      (surroundings none text)
  | sequence p q, places => reached text q (reached text p places)
  | choice p q, places =>
    List.zipWith (· || ·) (reached text p places) (reached text q places)
  | repeated p least most, places =>
    let first := afterSteps (reached text p) (min least (text.length + 1)) places
    withinSteps (reached text p) (min ((most.getD (least + text.length)) - least) text.length)
      first

/-- Whether a pattern is found in a text. -/
def isFoundIn (p : Pattern) (text : List Char) : Bool :=
  (p.reached text (true :: text.map fun _ => true)).any id

end Pattern

end TaggedMemos.Text
