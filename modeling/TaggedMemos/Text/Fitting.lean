import TaggedMemos.Text.EscapeSequence
import TaggedMemos.Text.Joining

/-!
# Fitting a Text into Columns

A text too wide for the columns there are is cut, and a mark takes the place of what was cut off.
The columns that a mark needs are kept free for it. Escape sequences take up no column and are all
kept, those after the cut as well; the text between two of them is measured as a whole.
-/

namespace TaggedMemos.Text

/-- A part of a text that belongs to sequences from beginning to end, or to none. -/
structure Stretch where
  /-- The part. -/
  chars : List Char
  /-- Whether it belongs to sequences. -/
  inSequence : Bool
  deriving DecidableEq, Repr

/-- The stretches of a text, as long as possible. -/
def stretches : List MarkedChar → List Stretch
  | [] => []
  | c :: cs =>
    match stretches cs with
    | [] => [⟨[c.char], c.inSequence⟩]
    | s :: rest =>
      if s.inSequence = c.inSequence then ⟨c.char :: s.chars, s.inSequence⟩ :: rest
      else ⟨[c.char], c.inSequence⟩ :: s :: rest

/-- The columns that a text takes up without its escape sequences. -/
def shownWidth (cs : List Char) : Nat :=
  textWidth (((marked cs).filter (!·.inSequence)).map (·.char))

/-- The characters at the beginning of a text that fill a number of columns, each measured by
itself. -/
def filling (room : Nat) : List Char → List Char
  | [] => []
  | c :: cs =>
    if widthAlone c < room then c :: filling (room - widthAlone c) cs
    else if widthAlone c = room then [c]
    else []

/-- The beginning of a text in `room` columns, followed by the mark and the later sequences if
the text does not end there. -/
def cut (mark : List Char) (room : Nat) : List Stretch → List Char
  | [] => []
  | s :: rest =>
    if s.inSequence then s.chars ++ cut mark room rest
    else
      let width := textWidth s.chars
      if width ≤ room then s.chars ++ cut mark (room - width) rest
      else
        filling room s.chars ++ mark ++ (rest.filter (·.inSequence)).flatMap (·.chars)

/-- A text in `width` columns, cut if it leaves no room for the mark. -/
def fit (width : Nat) (mark cs : List Char) : List Char :=
  cut mark (width - textWidth mark) (stretches (marked cs))

end TaggedMemos.Text
