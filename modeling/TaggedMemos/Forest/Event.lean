import TaggedMemos.Text.Offset

/-!
# Markdown Events

Markdown reaches the forest as a list of events, each with the span of the text it stands for.
Blocks and inline containers come as a start and a stop with everything inside them in between.
Spans may overlap, leave gaps and run backwards: nothing is assumed of them here.
-/

namespace TaggedMemos

/-- What a start event opens. -/
inductive Opening where
  /-- A paragraph. -/
  | paragraph
  /-- A heading with its level. -/
  | heading (level : Nat)
  /-- A block quote. -/
  | quote
  /-- A code block; a fenced one has an info string. -/
  | codeBlock (info : Option String)
  /-- A list; an ordered one has the number of its first item. -/
  | list (first : Option UInt64)
  /-- A list item. -/
  | item
  /-- Emphasis. -/
  | emphasis
  /-- Strong emphasis. -/
  | strong
  /-- A link, or with `auto` an address in angle brackets. -/
  | link (auto : Bool) (url title : String)
  /-- An image. -/
  | image (url title : String)
  /-- A construct that leaves no trace in the forest. -/
  | other
  deriving DecidableEq, Repr

/-- A markdown event. -/
inductive Event where
  /-- A construct begins. -/
  | start (opening : Opening)
  /-- The construct opened last ends. -/
  | stop
  /-- Text, with the text it stands for. -/
  | text (text : String)
  /-- A line ending within a paragraph. -/
  | softBreak
  /-- A line ending within a paragraph that breaks the line. -/
  | hardBreak
  /-- A code span. -/
  | code (code : String)
  /-- HTML within a paragraph or in an HTML block. -/
  | html
  /-- A thematic break. -/
  | rule
  /-- The marker of a task item. -/
  | taskMarker (complete : Bool)
  /-- A construct that leaves no trace in the forest. -/
  | other
  deriving DecidableEq, Repr

/-- An event with the span of text it stands for. -/
structure Located where
  /-- The event. -/
  event : Event
  /-- Its span. -/
  span : Text.Span
  deriving DecidableEq, Repr

end TaggedMemos
