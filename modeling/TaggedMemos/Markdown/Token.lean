import TaggedMemos.Markdown.Cursor
import TaggedMemos.Text.Blank
import TaggedMemos.Text.Offset
import TaggedMemos.Text.Punctuation

/-!
# Inline Tokens

The lines of a paragraph or heading are cut into tokens: characters that may turn out to be
markup, and the text between them. An escaping backslash belongs to no token. Which of the
tokens are markup is decided later, over all lines together.

In an item of a tight list the tokens of all its paragraphs are read together; the blocks between
them count as tokens then.

What comes before a line counts as nothing for the marks at its beginning. A line gives its
tokens and, apart from them, the break at its end, which counts only when the paragraph goes on.
-/

namespace TaggedMemos.Markdown

open Text

/-- What a token may be. -/
inductive Mark where
  /-- Text. -/
  | text
  /-- A run of asterisks or underscores, and whether emphasis may begin or end with it. -/
  | run (mark : Char) (count : Nat) (opens closes : Bool)
  /-- A run of backticks; the first one may be escaped. -/
  | ticks (count : Nat) (escaped : Bool)
  /-- A `<`. -/
  | angle
  /-- A `[`. -/
  | linkOpen
  /-- A `![`. -/
  | imageOpen
  /-- A `]`. -/
  | linkClose
  /-- A line ending. -/
  | softBreak
  /-- A line ending after a backslash or after two or more spaces. -/
  | hardBreak (backslash : Bool)
  /-- The marker of a task item. -/
  | task (complete : Bool)
  /-- A block among the paragraphs of a tight item, by its place in the item. -/
  | block (index : Nat)
  deriving DecidableEq, Repr

/-- A token with the span it takes up. -/
structure Token where
  /-- What it may be. -/
  mark : Mark
  /-- Its span. -/
  span : Span
  deriving DecidableEq, Repr

namespace Mark

/-- Whether it is up to other tokens what a token is. -/
def isOpen : Mark → Bool
  | run .. | ticks .. | angle | linkOpen | imageOpen | linkClose => true
  | text | softBreak | hardBreak _ | task _ | block _ => false

end Mark

/-! ### Flanking -/

/-- Whether emphasis may begin with a run, given the characters around it. -/
def runOpens (mark : Char) (previous next : Option Char) : Bool :=
  match next with
  | none => false
  | some n =>
    !isBlank n &&
      match previous with
      | none => true
      | some p => (mark == '*' && !isPunctuation n) || isBlank p || isPunctuation p

/-- Whether emphasis may end with a run, given the characters around it. -/
def runCloses (mark : Char) (previous next : Option Char) : Bool :=
  match previous with
  | none => false
  | some p =>
    !isBlank p &&
      match next with
      | none => true
      | some n => (mark == '*' && !isPunctuation p) || isBlank n || isPunctuation n

/-! ### Lines -/

/-- A line that has been read. -/
structure LexedLine where
  /-- Its tokens in order. -/
  tokens : List Token
  /-- The break at its end, unless the text ends there. -/
  lineBreak : Option Token
  /-- The beginning of the next line. -/
  next : Cursor

/-- The state of reading a line. -/
structure LineState where
  /-- The character before the position, within the line. -/
  previous : Option Char := none
  /-- The position. -/
  pos : Nat
  /-- Where the text not yet in a token begins. -/
  textStart : Nat
  /-- The number of gap characters right before the position. -/
  gaps : Nat := 0
  /-- The number of backslashes right before the position. -/
  slashes : Nat := 0
  /-- The tokens so far, backwards. -/
  tokens : List Token := []

namespace LineState

/-- Moves past a character. -/
def pass (s : LineState) (c : Char) : LineState :=
  { s with
    previous := some c
    pos := s.pos + c.utf8Size
    gaps := if isGap c then s.gaps + 1 else 0
    slashes := if c = '\\' then s.slashes + 1 else 0 }

/-- Makes a token of the text up to `stop`, if there is any. -/
def cutText (s : LineState) (stop : Nat) : LineState :=
  if s.textStart < stop then
    { s with tokens := ⟨.text, ⟨s.textStart, stop⟩⟩ :: s.tokens, textStart := stop }
  else s

/-- Makes a token of the next `width` bytes, after the text before them. -/
def cutMark (s : LineState) (mark : Mark) (width : Nat) : LineState :=
  let s := s.cutText s.pos
  { s with
    tokens := ⟨mark, ⟨s.pos, s.pos + width⟩⟩ :: s.tokens
    textStart := s.pos + width }

/-- Ends a line at a line ending, with `rest` after it. -/
def finishLine (s : LineState) (width : Nat) (rest : List Char) : LexedLine :=
  let next : Cursor := ⟨s.pos + width, rest⟩
  let ends := fun (mark : Mark) (stop : Nat) =>
    { tokens := (s.cutText stop).tokens.reverse
      lineBreak := some ⟨mark, ⟨stop, s.pos + width⟩⟩
      next : LexedLine }
  if s.slashes % 2 = 1 && !rest.isEmpty then ends (.hardBreak true) (s.pos - 1)
  else if 2 ≤ s.gaps then ends (.hardBreak false) (s.pos - s.gaps)
  else ends .softBreak (s.pos - s.gaps)

/-- Ends a line at the end of the text. -/
def finishText (s : LineState) : LexedLine :=
  { tokens := (s.cutText (s.pos - s.gaps)).tokens.reverse
    lineBreak := none
    next := ⟨s.pos, []⟩ }

end LineState

/-- Reads a line; the next `skip` characters belong to a token already. -/
def lexLineFrom (s : LineState) (skip : Nat) : List Char → LexedLine
  | [] => s.finishText
  | c :: rest =>
    match skip with
    | skip + 1 => lexLineFrom (s.pass c) skip rest
    | 0 =>
      if c = '\r' then
        match rest with
        | '\n' :: rest' => s.finishLine 2 rest'
        | _ => s.finishLine 1 rest
      else if c = '\n' then s.finishLine 1 rest
      else if c = '\\' then
        match rest with
        | '`' :: _ =>
          let count := countWhile (· == '`') rest
          let cut := { (s.cutText s.pos).pass c with textStart := s.pos + 1 }
          lexLineFrom (cut.cutMark (.ticks count true) count) count rest
        | d :: _ =>
          if isAsciiPunctuation d then
            lexLineFrom { (s.cutText s.pos).pass c with textStart := s.pos + 1 } 1 rest
          else lexLineFrom (s.pass c) 0 rest
        | [] => lexLineFrom (s.pass c) 0 rest
      else if c = '*' || c = '_' then
        let count := 1 + countWhile (· == c) rest
        let next := (rest.drop (count - 1)).head?
        let opens := runOpens c s.previous next
        let closes := runCloses c s.previous next
        let cut := if opens || closes then s.cutMark (.run c count opens closes) count else s
        lexLineFrom (cut.pass c) (count - 1) rest
      else if c = '`' then
        let count := 1 + countWhile (· == '`') rest
        lexLineFrom ((s.cutMark (.ticks count false) count).pass c) (count - 1) rest
      else if c = '<' && rest.head? != some '\\' then
        lexLineFrom ((s.cutMark .angle 1).pass c) 0 rest
      else if c = '!' && rest.head? == some '[' then
        lexLineFrom ((s.cutMark .imageOpen 2).pass c) 1 rest
      else if c = '[' then lexLineFrom ((s.cutMark .linkOpen 1).pass c) 0 rest
      else if c = ']' then lexLineFrom ((s.cutMark .linkClose 1).pass c) 0 rest
      else lexLineFrom (s.pass c) 0 rest

/-- Reads the line a cursor stands in, from there to its end. -/
def lexLine (cursor : Cursor) : LexedLine :=
  lexLineFrom { pos := cursor.pos, textStart := cursor.pos } 0 cursor.rest

end TaggedMemos.Markdown
