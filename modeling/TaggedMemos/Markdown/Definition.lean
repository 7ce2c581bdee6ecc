import TaggedMemos.Markdown.Interruption
import TaggedMemos.Markdown.Target
import TaggedMemos.Text.CaseFold

/-!
# Labels and Reference Definitions

A reference definition, `[label]: destination "title"`, gives a target to a label. Links then name
the label. Labels are compared without regard to case; spacing at their ends does not count, and any
spacing between counts as a single space. Of several definitions of one label the first holds.
-/

namespace TaggedMemos.Markdown

open Text

/-! ### Labels -/

/-- How a construct goes on in a new line: where, if it does. -/
abbrev GoesOn := Cursor → Option Cursor

/-- Passes spacing within a label; it has at most one line ending. -/
def passLabelSpacing (goesOn : GoesOn) (broken : Bool) : Nat → Cursor → Option Cursor
  | 0, _ => none
  | fuel + 1, cursor =>
    match cursor.rest with
    | [] => some cursor
    | c :: _ =>
      if isEol c then
        if broken then none
        else do
          let next ← goesOn (cursor.skip ((eol? cursor.rest).getD 1))
          passLabelSpacing goesOn true fuel next
      else if isGap c then passLabelSpacing goesOn broken fuel (cursor.skip 1)
      else some cursor

/-- A label without the spacing at its ends. -/
def trimLabel (label : List Char) : List Char :=
  ((label.dropWhile isSpacing).reverse.dropWhile isSpacing).reverse

/-- What a label has been read to. -/
structure LabelState where
  /-- The characters of the label, backwards. -/
  read : List Char := []
  /-- Whether they are spacing only. -/
  blank : Bool := true
  /-- What they count towards the length of the label. -/
  weight : Nat := 0

/-- The weight that a label has to stay below. Escapes count two, spacing and the characters beyond
ASCII as many as they have bytes, and all else nothing. -/
def labelLimit : Nat := 1000

/-- Reads a label up to and including its closing bracket. -/
def readLabel (goesOn : GoesOn) (s : LabelState) : Nat → Cursor → Option (List Char × Cursor)
  | 0, _ => none
  | fuel + 1, cursor =>
    match cursor.rest with
    | [] => none
    | c :: rest =>
      if labelLimit ≤ s.weight || c = '[' then none
      else if c = ']' then
        if s.blank then none else some (trimLabel s.read.reverse, cursor.skip 1)
      else if beginsEscape (c :: rest) then
        let read := (rest.take 1).reverse ++ c :: s.read
        readLabel goesOn { read, blank := false, weight := s.weight + 2 } fuel (cursor.skip 2)
      else if isSpacing c then do
        let next ← passLabelSpacing goesOn false (rest.length + 2) cursor
        let weight := s.weight + (next.pos - cursor.pos)
        readLabel goesOn { s with read := ' ' :: s.read, weight } fuel next
      else
        let weight := s.weight + (if c.utf8Size = 1 then 0 else c.utf8Size)
        readLabel goesOn { read := c :: s.read, blank := false, weight } fuel (cursor.skip 1)

/-- Passes a label in brackets. -/
def passLabel (goesOn : GoesOn) (cursor : Cursor) : Option (List Char × Cursor) :=
  match cursor.rest with
  | '[' :: rest => readLabel goesOn {} (rest.length + 1) (cursor.skip 1)
  | _ => none

/-! ### Definitions -/

/-- The targets of labels, by the folding of the label. -/
abbrev Definitions := List (List Char × Target)

/-- The target of a label. -/
def Definitions.find? (definitions : Definitions) (label : List Char) : Option Target :=
  List.lookup (foldCase label) definitions

/-- Adds a definition, unless the label has one. -/
def Definitions.add (definitions : Definitions) (label : List Char) (target : Target) :
    Definitions :=
  if (definitions.find? label).isSome then definitions
  else definitions ++ [(foldCase label, target)]

/-- Where a definition goes on in a new line, unless the line ends it: it interrupts a paragraph, or
it would underline one. An underline counts outside the containers around the definition as well
if `anywhere`. A line that is indented by four columns goes on with the definition in any case. -/
def definitionMargin? (holders : List Holder) (anywhere : Bool) (cursor : Cursor) :
    Option Margin :=
  let (held, margin) := Margin.continueThrough { cursor } holders
  let inside := held == holders.length
  let (missing, inner) := margin.take 4
  let rest := inner.cursor.rest
  if missing != 0 &&
      (interruptsParagraph inside rest || ((anywhere || inside) && (underline? rest).isSome)) then
    none
  else some inner

/-- How a label goes on in a new line. -/
def definitionGoesOn (holders : List Holder) : GoesOn := fun cursor =>
  (definitionMargin? holders false cursor).map (·.cursor)

/-- Passes the spacing between the parts of a definition, with at most one line ending; tells
whether there was one. -/
def passDefinitionSpacing (holders : List Holder) (broken : Bool) :
    Nat → Cursor → Option (Bool × Cursor)
  | 0, _ => none
  | fuel + 1, cursor =>
    let cursor := cursor.skipGap
    match eol? cursor.rest with
    | none => some (broken, cursor)
    | some n =>
      if broken then none
      else do
        let margin ← definitionMargin? holders true (cursor.skip n)
        passDefinitionSpacing holders true fuel margin.cursor

/-- Reads the title of a definition up to and including its closing character. It may go over
lines that are not blank; `read` is what was read, backwards. -/
def readDefinitionTitle (holders : List Holder) (closing : Char) (read : List Char) :
    Nat → Cursor → Option (List Char × Cursor)
  | 0, _ => none
  | fuel + 1, cursor =>
    match cursor.rest with
    | [] => none
    | c :: rest =>
      if c = closing then some (read.reverse, cursor.skip 1)
      else if c = '(' && closing = ')' then none
      else if isEol c then do
        let margin ← definitionMargin? holders true (cursor.skip ((eol? cursor.rest).getD 1))
        let next := margin.takeAll.cursor
        if (blankLine? next.rest).isSome then none
        else readDefinitionTitle holders closing ('\n' :: read) fuel next
      else if c = '\\' && !(rest.head?.any isEol) then
        readDefinitionTitle holders closing ((rest.take 1).reverse ++ c :: read) fuel
          (cursor.skip 2)
      else readDefinitionTitle holders closing (c :: read) fuel (cursor.skip 1)

/-- Passes the title of a definition. -/
def passDefinitionTitle (holders : List Holder) (cursor : Cursor) :
    Option (List Char × Cursor) :=
  match cursor.rest with
  | c :: rest =>
    (titleClosing? c).bind fun closing =>
      readDefinitionTitle holders closing [] (rest.length + 1) (cursor.skip 1)
  | [] => none

/-- Passes a reference definition. What looks like a title but is followed by something else
makes the definition fail, unless it stands in a line of its own, which then does not belong
to the definition. -/
def passDefinition (holders : List Holder) (cursor : Cursor) :
    Option (List Char × Target × Cursor) := do
  let (label, cursor) ← passLabel (definitionGoesOn holders) cursor
  if cursor.rest.head? != some ':' then none
  else
    let (_, cursor) ← passDefinitionSpacing holders false 3 (cursor.skip 1)
    let (raw, untitled) ← passDestination cursor
    if untitled.pos = cursor.pos then none
    else
      let url := unescape raw
      match passDefinitionSpacing holders false 3 untitled with
      | none => some (label, { url }, untitled)
      | some (broken, cursor) =>
        if cursor.pos = untitled.pos && !broken then none
        else
          let titled? := (passDefinitionTitle holders cursor).filter fun (_, after) =>
            (blankLine? after.rest).isSome
          match titled? with
          | some (title, after) => some (label, { url, title := unescape title }, after)
          | none => if broken then some (label, { url }, untitled) else none

end TaggedMemos.Markdown
