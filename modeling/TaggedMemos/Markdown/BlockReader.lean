import TaggedMemos.Markdown.Block

/-!
# Reading Blocks

A text is read line by line. A line first continues open containers and closes those it does
not continue; then it may open further ones; what is left of it begins a block that holds
lines, and that block takes all lines that belong to it at once.
-/

namespace TaggedMemos.Markdown

open Text

/-! ### Paragraphs and headings -/

/-- The lines of a paragraph. -/
structure ProseLines where
  /-- Their tokens, backwards. -/
  tokens : List Token
  /-- Where the line after them begins. -/
  next : Cursor
  /-- The level of the heading that an underline makes of them. -/
  level : Option Nat

/-- The tokens of lines that end with a break, without that break; a backslash before it is
text then. -/
def withoutBreak (lineBreak : Option Token) (tokens : List Token) : List Token :=
  match lineBreak with
  | some ⟨.hardBreak true, span⟩ => ⟨.text, ⟨span.start, span.start + 1⟩⟩ :: tokens
  | _ => tokens

/-- Reads the lines of a paragraph, from the text of its first line on. -/
def readProse (holders : List Holder) (tokens : List Token) : Nat → Cursor → ProseLines
  | 0, cursor => ⟨tokens, cursor, none⟩
  | fuel + 1, cursor =>
    let line := lexLine cursor
    let tokens := line.tokens.reverse ++ tokens
    let (held, margin) := Margin.continueThrough { cursor := line.next } holders
    let inside := held == holders.length
    let (missing, inner) := margin.take 4
    let underlined? :=
      if missing != 0 && inside then underline? inner.cursor.rest else none
    match underlined? with
    | some (level, n) => ⟨withoutBreak line.lineBreak tokens, inner.cursor.skip n, some level⟩
    | none =>
      let next := inner.takeAll
      if (missing != 0 && interruptsParagraph inside inner.cursor.rest) || next.atEol then
        ⟨withoutBreak line.lineBreak tokens, line.next, none⟩
      else readProse holders (line.lineBreak.toList ++ tokens) fuel next.cursor

/-- Reads a paragraph, or the heading that an underline makes of it. -/
def Reading.readParagraph (r : Reading) (cursor : Cursor) : Reading × Cursor :=
  let lines := readProse r.holders r.task.toList (cursor.rest.length + 1) cursor
  let stop := lines.next.pos
  let prose : Prose := ⟨cursor, r.holders, lines.tokens.reverse⟩
  let block :=
    match lines.level with
    | some level => .heading level ⟨cursor.pos, stop⟩ prose
    | none => .paragraph ⟨cursor.pos, stop⟩ prose
  ({ r with task := none }.append block, lines.next)

/-- The number of bytes of a heading's line that belong to its text: trailing spaces do not,
nor do trailing number signs with a space before them, or with nothing before them at all. -/
def headingLimit (cs : List Char) : Nat :=
  let text := (cs.reverse.dropWhile fun c => c == '\n' || c == '\r' || c == ' ')
  let unclosed := text.dropWhile (· == '#')
  if unclosed.isEmpty then 0
  else if unclosed.head? == some ' ' then byteLength (unclosed.dropWhile (· == ' '))
  else byteLength text

/-- Makes the last of some tokens end at `stop`. -/
def endLastAt (stop : Nat) (tokens : List Token) : List Token :=
  match tokens.reverse with
  | [] => []
  | last :: before => (⟨last.mark, ⟨last.span.start, stop⟩⟩ :: before).reverse

/-- Reads a heading that begins with number signs. -/
def Reading.readHeading (r : Reading) (level : Nat) (cursor : Cursor) : Reading × Cursor :=
  let signs := cursor.skip level
  match eol? signs.rest with
  | some n =>
    let next := signs.skip n
    let prose : Prose := ⟨signs, r.holders, []⟩
    (r.append (.heading level ⟨cursor.pos, next.pos⟩ prose), next)
  | none =>
    let text := signs.skipGap
    let line := lexLine text
    let limit := headingLimit (text.upTo line.next.pos).rest
    let tokens :=
      endLastAt (text.pos + limit) (withoutBreak line.lineBreak
        line.tokens.reverse).reverse
    (r.append (.heading level ⟨cursor.pos, line.next.pos⟩ ⟨text, r.holders, tokens⟩), line.next)

/-! ### Code and HTML -/

/-- The parts of a line up to its line feed: the spans before and after a carriage return, or
the whole line. -/
def lineParts (cursor : Cursor) : List (List Char × Span) :=
  let line := cursor.rest.take (throughLineFeed cursor.rest)
  let stop := cursor.pos + byteLength line
  match line.reverse with
  | c :: '\r' :: before =>
    if c.utf8Size = 1 then
      [(before.reverse, ⟨cursor.pos, stop - 2⟩), ([c], ⟨stop - 1, stop⟩)]
    else [(line, ⟨cursor.pos, stop⟩)]
  | _ => [(line, ⟨cursor.pos, stop⟩)]

/-- The pieces of code in a line; columns of a tab that were not used up are spaces. -/
def codePieces (margin : Margin) : List (String × Span) :=
  let parts := (lineParts margin.cursor).filter fun (_, span) => span.start < span.stop
  let pieces := parts.map fun (text, span) => (String.ofList text, span)
  if margin.spare = 0 then pieces
  else
    let pos := margin.cursor.pos
    (String.ofList (List.replicate margin.spare ' '), ⟨pos, pos⟩) :: pieces

/-- A cursor moved past the next line feed. -/
def Cursor.skipLine (cursor : Cursor) : Cursor :=
  cursor.skip (throughLineFeed cursor.rest)

/-- Lines that have been read into a block. -/
structure BlockLines (α : Type) where
  /-- What they give. -/
  parts : List α
  /-- Where the block ends. -/
  stop : Nat
  /-- Where reading goes on. -/
  next : Cursor

/-- Reads the lines of a fenced code block; `pieces` are those before, backwards. The closing fence
is indented less than four columns, those of the opening one included. -/
def readFenced (holders : List Holder) (fence : Fence) (indent : Nat)
    (pieces : List (String × Span)) : Nat → Cursor → BlockLines (String × Span)
  | 0, line => ⟨pieces.reverse, line.pos, line⟩
  | fuel + 1, line =>
    let (held, margin) := Margin.continueThrough { cursor := line } holders
    if held < holders.length then ⟨pieces.reverse, line.pos, line⟩
    else
      let margin := (margin.take indent).2
      let (missing, inner) := margin.take (4 - indent)
      match if missing = 0 then none else closingFence? fence inner.cursor.rest with
      | some n =>
        let closed := inner.cursor.skip n
        ⟨pieces.reverse, closed.pos, closed.skipBlank⟩
      | none =>
        readFenced holders fence indent ((codePieces margin).reverse ++ pieces) fuel
          margin.cursor.skipLine

/-- Reads a fenced code block. -/
def Reading.readFence (r : Reading) (fence : Fence) (indent : Nat) (cursor : Cursor) :
    Reading × Cursor :=
  let info := (cursor.skip fence.length).skipGap
  let next := info.skipLine
  let line := info.rest.take (throughLineFeed info.rest)
  let text := (line.reverse.dropWhile isSpacing).reverse
  let lines := readFenced r.holders fence indent [] (cursor.rest.length + 1) next
  (r.append (.code (some (unescape text)) ⟨cursor.pos, lines.stop⟩ lines.parts), lines.next)

/-- The lines of indented code. -/
structure IndentedLines where
  /-- The pieces of code, backwards. -/
  pieces : List (String × Span) := []
  /-- Those up to the last line that is not blank, backwards. -/
  kept : List (String × Span) := []
  /-- Where that line ends. -/
  stop : Nat := 0
  /-- Whether the last line is blank. -/
  blank : Bool := false

/-- Reads the lines of indented code, each from after its margin. -/
def readIndented (holders : List Holder) (lines : IndentedLines) :
    Nat → Margin → IndentedLines × Cursor
  | 0, margin => (lines, margin.cursor)
  | fuel + 1, margin =>
    let pieces := (codePieces margin).reverse ++ lines.pieces
    let next := margin.cursor.skipLine
    let lines :=
      if lines.blank then { lines with pieces }
      else { lines with pieces, kept := pieces, stop := next.pos }
    let (held, margin) := Margin.continueThrough { cursor := next } holders
    let (missing, inner) := margin.take 4
    if held < holders.length || (missing != 0 && !inner.atEol) || inner.cursor.rest.isEmpty then
      (lines, next)
    else
      let blank := (blankLine? inner.cursor.rest).isSome
      readIndented holders { lines with blank } fuel inner

/-- Reads indented code. -/
def Reading.readIndentedCode (r : Reading) (margin : Margin) : Reading × Cursor :=
  let start := margin.cursor.pos
  let (lines, next) := readIndented r.holders {} (margin.cursor.rest.length + 1) margin
  ({ r with blankBefore := lines.blank }.append
    (.code none ⟨start, lines.stop⟩ lines.kept.reverse), next)

/-- Reads the lines of an HTML block; `parts` are the spans before, backwards. -/
def readHtml (holders : List Holder) (ending : HtmlBlockEnd) (parts : List Span) :
    Nat → Cursor → BlockLines Span
  | 0, cursor => ⟨parts.reverse, cursor.pos, cursor⟩
  | fuel + 1, cursor =>
    let parts := ((lineParts cursor).map (·.2)).reverse ++ parts
    let line := cursor.rest.take (throughLineFeed cursor.rest)
    let next := cursor.skipLine
    let (held, margin) := Margin.continueThrough { cursor := next } holders
    let ends :=
      held < holders.length ||
        match ending with
        | .holding text => occursIn text.toList line
        | .blank => margin.atEol
    let done :=
      margin.cursor.rest.isEmpty ||
        match ending with
        | .holding _ => false
        | .blank => (blankLine? margin.cursor.rest).isSome
    if ends then ⟨parts.reverse, next.pos, next⟩
    else if done then ⟨parts.reverse, margin.cursor.pos, next⟩
    else readHtml holders ending parts fuel margin.cursor

/-- Reads an HTML block. -/
def Reading.readHtmlBlock (r : Reading) (ending : HtmlBlockEnd) (cursor : Cursor) :
    Reading × Cursor :=
  let lines := readHtml r.holders ending [] (cursor.rest.length + 1) cursor
  (r.append (.html ⟨cursor.pos, lines.stop⟩ lines.parts), lines.next)

/-! ### Lines -/

/-- Opens the containers that a line begins. Either the line is over, or what is left of it
begins a block. A list and its items begin before their indentation, of which every column
counts as one byte; a quote begins at its marker. -/
def Reading.openContainers (lineStart : Nat) : Nat → Reading → Margin →
    Reading × (Cursor ⊕ Margin)
  | 0, r, margin => (r, .inr margin)
  | fuel + 1, r, margin =>
    let (missing, indented) := margin.take 4
    let start := indented.cursor.pos - (4 - missing)
    match margin.listMarker? with
    | some (marker, inner) =>
      let r := (r.continueList start marker).push (.item marker.indent) start
      match blankLine? inner.cursor.rest with
      | some n =>
        let next := inner.cursor.skip n
        ({ r with itemBegan := some next.pos }, .inl next)
      | none =>
        match inner.taskMarker? with
        | some (complete, after) =>
          let span : Span := ⟨inner.cursor.pos, after.cursor.pos⟩
          match blankLine? after.cursor.rest with
          | some n =>
            let next := after.cursor.skip n
            ({ r with itemBegan := some next.pos }.append (.task complete span), .inl next)
          | none =>
            openContainers lineStart fuel { r with task := some ⟨.task complete, span⟩ } after
        | none => openContainers lineStart fuel r inner
    | none =>
      match if missing = 0 then none else indented.quoteMarker? with
      | some inner =>
        let r := (r.finishList lineStart).push .quote indented.cursor.pos
        openContainers lineStart fuel r inner
      | none => (r, .inr margin)

/-- Reads reference definitions, one after the other, and then the paragraph that follows
directly, if there is one. Definitions count as lines of a paragraph when it is decided whether
a line goes on. -/
def Reading.readDefinitions (lineStart : Nat) : Nat → Reading → Cursor → Reading × Cursor
  | 0, r, cursor => r.readParagraph cursor
  | fuel + 1, r, cursor =>
    match passDefinition r.holders cursor with
    | none => (r.finishList cursor.pos).readParagraph cursor
    | some (label, target, after) =>
      let r := { r with definitions := r.definitions.add label target }
      let next := after.skipBlank
      let (held, margin) := Margin.continueThrough { cursor := next } r.holders
      let (missing, inner) := margin.take 4
      if missing != 0 &&
          interruptsParagraph (held == r.holders.length) inner.cursor.rest then
        (r.finishList lineStart, next)
      else readDefinitions next.pos fuel r inner.takeAll.cursor

/-- Reads the block that begins after the margin of a line. -/
def Reading.readLeaf (r : Reading) (lineStart : Nat) (margin : Margin) : Reading × Cursor :=
  match blankLine? margin.cursor.rest with
  | some n => (r.meetBlankLine, margin.cursor.skip n)
  | none =>
    let (missing, inner) := margin.take 4
    let cursor := inner.cursor
    let finished := r.finishList lineStart
    if missing = 0 then finished.readIndentedCode inner
    else match htmlBlock? cursor with
      | some ending => finished.readHtmlBlock ending cursor
      | none =>
        match thematicBreak? cursor.rest with
        | some n =>
          let next := cursor.skip n
          (finished.append (.rule ⟨cursor.pos, next.pos⟩), next)
        | none =>
          match headingLevel? cursor.rest with
          | some level => finished.readHeading level cursor
          | none =>
            match codeFence? cursor.rest with
            | some fence => finished.readFence fence (4 - missing) cursor
            | none => readDefinitions lineStart (cursor.rest.length + 1) r cursor

/-- Reads a block from the beginning of a line on. -/
def Reading.readBlock (r : Reading) (line : Cursor) : Reading × Cursor :=
  let (held, margin) := Margin.continueThrough { cursor := line } r.holders
  match (r.popDownTo held line.pos).openContainers line.pos (line.rest.length + 1) margin with
  | (r, .inl next) => (r, next)
  | (r, .inr margin) => r.readLeaf line.pos margin

/-- Reads blocks up to the end of the text. -/
def Reading.readAll : Nat → Reading → Cursor → Reading
  | 0, r, _ => r
  | fuel + 1, r, line =>
    if line.rest.isEmpty then r
    else
      let (r, next) := r.readBlock line
      readAll fuel r next

/-- The blocks of a text and its reference definitions. -/
def readBlocks (source : String) : List Block × Definitions :=
  let cs := source.toList
  let r := Reading.readAll (cs.length + 1) {} { rest := cs }
  (r.blocks (byteLength cs), r.definitions)

end TaggedMemos.Markdown
