import TaggedMemos.Markdown.Definition

/-!
# Blocks

The block structure of a text: quotes, lists and items hold blocks, and the other blocks hold
lines. The text of a paragraph or heading is kept as tokens until all reference definitions of
the whole text are known.
-/

namespace TaggedMemos.Markdown

open Text

/-- Text that may have inline markup. -/
structure Prose where
  /-- Where it begins. -/
  cursor : Cursor
  /-- The containers around it, outermost first. -/
  holders : List Holder
  /-- Its tokens. -/
  tokens : List Token

/-- A block. -/
inductive Block where
  /-- A paragraph. -/
  | paragraph (span : Span) (prose : Prose)
  /-- A heading. -/
  | heading (level : Nat) (span : Span) (prose : Prose)
  /-- A thematic break. -/
  | rule (span : Span)
  /-- A code block: the info string of a fenced one, and pieces of code with the spans they
  stand for. -/
  | code (info : Option String) (span : Span) (pieces : List (String × Span))
  /-- An HTML block with the spans of its lines. -/
  | html (span : Span) (lines : List Span)
  /-- The marker of a task item that has nothing else in its first line. -/
  | task (complete : Bool) (span : Span)
  /-- A block quote. -/
  | quote (span : Span) (children : List Block)
  /-- A list; an ordered one has the number of its first item. -/
  | list (first : Option Nat) (span : Span) (children : List Block)
  /-- A list item. The paragraphs directly in a tight one leave nothing but their text behind. -/
  | item (tight : Bool) (span : Span) (children : List Block)

namespace Block

/-- The span of a block. -/
def span : Block → Span
  | paragraph span _ | heading _ span _ | rule span | code _ span _ | html span _ | task _ span
  | quote span _ | list _ span _ | item _ span _ => span

/-- An item made tight. -/
def tightened : Block → Block
  | item _ span children => item true span children
  | block => block

/-- The text of a paragraph. -/
def paragraphProse? : Block → Option Prose
  | paragraph _ prose => some prose
  | _ => none

/-- The tokens of a tight item: those of its paragraphs, and its other blocks. -/
def strandTokens (children : List Block) : List Token :=
  (children.mapIdx fun index child =>
    match child with
    | paragraph _ prose => prose.tokens
    | child => [⟨.block index, child.span⟩]).flatten

end Block

/-! ### Blocks being read -/

/-- What an open container is. -/
inductive OpenKind where
  /-- A block quote. -/
  | quote
  /-- A list with the delimiter of its markers, the number of its first one, and whether no
  blank line was met between its parts. -/
  | list (delimiter : Char) (number : Nat) (tight : Bool)
  /-- A list item with the columns its lines are indented. -/
  | item (indent : Nat)

/-- What a line has to show to continue a container. -/
def OpenKind.holder : OpenKind → Holder
  | .quote => .quote
  | .list .. => .list
  | .item indent => .item indent

/-- A container that may get further blocks. -/
structure OpenBlock where
  /-- What it is. -/
  kind : OpenKind
  /-- Where it begins. -/
  start : Nat
  /-- Its blocks so far, backwards. -/
  children : List Block := []

/-- The block an open container becomes when it ends. -/
def OpenBlock.closed (block : OpenBlock) (stop : Nat) : Block :=
  let span : Span := ⟨block.start, stop⟩
  let children := block.children.reverse
  match block.kind with
  | .quote => .quote span children
  | .item _ => .item false span children
  | .list delimiter number tight =>
    let first := if isOrderedDelimiter delimiter then some number else none
    .list first span (if tight then children.map Block.tightened else children)

/-- A text of which some lines have been read. -/
structure Reading where
  /-- The open containers, innermost first. -/
  opened : List OpenBlock := []
  /-- The finished blocks outside of them, backwards. -/
  finished : List Block := []
  /-- After an item with a blank first line, where the next line begins. -/
  itemBegan : Option Nat := none
  /-- Whether there was a blank line before. -/
  blankBefore : Bool := false
  /-- A task marker that goes into the next paragraph. -/
  task : Option Token := none
  /-- The reference definitions. -/
  definitions : Definitions := []

namespace Reading

/-- The containers a line has to continue, outermost first. -/
def holders (r : Reading) : List Holder :=
  (r.opened.map (·.kind.holder)).reverse

/-- Appends a block to the innermost open container. -/
def append (r : Reading) (block : Block) : Reading :=
  match r.opened with
  | [] => { r with finished := block :: r.finished }
  | innermost :: outer =>
    { r with opened := { innermost with children := block :: innermost.children } :: outer }

/-- Opens a container. -/
def push (r : Reading) (kind : OpenKind) (start : Nat) : Reading :=
  { r with opened := { kind, start } :: r.opened }

/-- Closes the innermost container. -/
def pop (r : Reading) (stop : Nat) : Reading :=
  match r.opened with
  | [] => r
  | innermost :: outer =>
    let closed := { r with opened := outer }.append (innermost.closed stop)
    match innermost.kind with
    | .list _ _ true => { closed with itemBegan := none }
    | _ => closed

/-- Closes containers until `n` are left. -/
def popDownTo (n stop : Nat) (r : Reading) : Reading :=
  (List.replicate (r.opened.length - n) ()).foldl (fun r _ => r.pop stop) r

/-- Notes a blank line between parts of the list with the given position in the stack. -/
def loosen (r : Reading) (position : Nat) : Reading :=
  let opened := r.opened.mapIdx fun i block =>
    match i == position, block.kind with
    | true, .list delimiter number _ => { block with kind := .list delimiter number false }
    | _, _ => block
  { r with opened, blankBefore := false }

/-- Closes an item that has nothing in its first line and a blank line after that. -/
def finishEmptyItem (r : Reading) : Reading :=
  let r' :=
    match r.itemBegan, r.opened with
    | some began, ⟨.item _, _, _⟩ :: _ => if r.blankBefore then r.pop began else r
    | _, _ => r
  { r' with itemBegan := none }

/-- Closes a list that a block other than an item follows. -/
def finishList (r : Reading) (stop : Nat) : Reading :=
  let r := r.finishEmptyItem
  let r :=
    match r.opened with
    | ⟨.list .., _, _⟩ :: _ => r.pop stop
    | _ => r
  if r.blankBefore then r.loosen 1 else r

/-- Goes on with the innermost list, if its markers have the same delimiter, or begins a new
list. -/
def continueList (r : Reading) (start : Nat) (marker : ListMarker) : Reading :=
  let r := r.finishEmptyItem
  let begun := fun (r : Reading) =>
    { r.push (.list marker.delimiter marker.number true) start with blankBefore := false }
  match r.opened with
  | [] => begun r
  | ⟨.list delimiter _ _, _, _⟩ :: _ =>
    if delimiter = marker.delimiter then if r.blankBefore then r.loosen 0 else r
    else begun (r.finishList start)
  | _ => begun (r.finishList start)

/-- Takes note of a blank line. An item that has nothing but blank lines takes no indented
lines any more. -/
def meetBlankLine (r : Reading) : Reading :=
  match r.opened with
  | [] => { r with blankBefore := true }
  | ⟨.quote, _, _⟩ :: _ => r
  | innermost :: outer =>
    let kind :=
      match innermost.kind with
      | .item indent => .item (if r.itemBegan.isSome then 0 else indent)
      | kind => kind
    { r with opened := { innermost with kind } :: outer, blankBefore := true }

/-- All blocks, when the text is over. -/
def blocks (r : Reading) (stop : Nat) : List Block :=
  (r.popDownTo 0 stop).finished.reverse

end Reading

end TaggedMemos.Markdown
